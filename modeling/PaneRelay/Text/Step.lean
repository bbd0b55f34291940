/-! # Reading off the front of a text

A reader takes something off the front of a text and returns the rest. That the rest is shorter is
part of what it returns, so a loop of readers comes to an end.

* `Step`: what a reader returns that takes at least one character.
* `Rest`: a rest that is at least not longer. -/

namespace PaneRelay.Text

/-- **What a reader took off a text:** a value and a shorter rest. -/
structure Step (s : List Char) (α : Type) where
  /-- What was read. -/
  val : α
  /-- What follows it. -/
  rest : List Char
  /-- Something was taken. -/
  shorter : rest.length < s.length

/-- A rest that is not longer than the text it was taken off. -/
abbrev Rest (s : List Char) := { r : List Char // r.length ≤ s.length }

variable {s t : List Char} {α β : Type}

namespace Step

/-- The same value as read off a longer text. -/
def widen (x : Step s α) (h : s.length ≤ t.length) : Step t α :=
  ⟨x.val, x.rest, Nat.lt_of_lt_of_le x.shorter h⟩

/-- The same value as read off a text of which `s` is a proper rest. -/
def within (x : Step s α) (h : s.length < t.length) : Step t α := x.widen (Nat.le_of_lt h)

/-- The same value as read after one more character. -/
def after (c : Char) (x : Step s α) : Step (c :: s) α := x.widen (Nat.le_succ _)

/-- What the first character alone gives. -/
def first (c : Char) (s : List Char) (a : α) : Step (c :: s) α := ⟨a, s, Nat.lt_succ_self _⟩

/-- The same value with a shorter rest. -/
def leaving (x : Step s α) (r : Rest x.rest) : Step s α :=
  ⟨x.val, r.1, Nat.lt_of_le_of_lt r.2 x.shorter⟩

/-- The rest alone. -/
def left (x : Step s α) : Rest s := ⟨x.rest, Nat.le_of_lt x.shorter⟩

/-- Another value at the same place. -/
def map (f : α → β) (x : Step s α) : Step s β := ⟨f x.val, x.rest, x.shorter⟩

end Step

namespace Rest

/-- The whole text, of which nothing was taken. -/
def whole (s : List Char) : Rest s := ⟨s, Nat.le_refl _⟩

/-- The same rest of a longer text. -/
def within (x : Rest s) (h : s.length ≤ t.length) : Rest t := ⟨x.1, Nat.le_trans x.2 h⟩

/-- The same rest after one more character. -/
def after (c : Char) (x : Rest s) : Rest (c :: s) := ⟨x.1, Nat.le_succ_of_le x.2⟩

/-- What was read from a character up to a rest. -/
def step (c : Char) (a : α) (x : Rest s) : Step (c :: s) α := ⟨a, x.1, Nat.lt_succ_of_le x.2⟩

end Rest

/-- A text without the characters at its front that pass a test. -/
def dropFront (test : Char → Bool) (s : List Char) : Rest s :=
  ⟨s.dropWhile test, (List.dropWhile_sublist test).length_le⟩

/-- Takes one character off the front of a text. -/
def take? (c : Char) (s : List Char) : Option (Step s Unit) :=
  match s with
  | [] => none
  | d :: r => if d = c then some (.first d r ()) else none

end PaneRelay.Text
