import PaneRelay.Json.Token

/-! # The grammar of JSON

Which texts write a value. A relation of the grammar holds between two texts if the second is what
the first leaves behind a piece of it. Blanks may stand before every token and after the whole. A
character of a string may be written as itself, by a letter, by its number, or by two halves of a
surrogate pair; half a pair alone is no character and writes nothing.

* `Datum`: a value, with its numbers as they are written and its members in order.
* `Letters`, `Quoted`: strings.
* `Figure`: numbers.
* `Spells`: values, and what follows the opening bracket of an array or the brace of an object.
* `Datum.WrittenAs`: a whole text. -/

namespace PaneRelay.Json

/-- **A JSON value.** -/
inductive Datum where
  /-- The value `null`. -/
  | null
  /-- A truth value. -/
  | bool (b : Bool)
  /-- A number. -/
  | number (x : Numeral)
  /-- A string. -/
  | string (s : String)
  /-- An array. -/
  | list (items : List Datum)
  /-- An object, in which a key may be repeated. -/
  | object (members : List (String × Datum))

/-- **Blanks** before a rest. -/
inductive Blanks : List Char → List Char → Prop where
  | done {r} : Blanks r r
  | more {c s r} : c ∈ [' ', '\t', '\n', '\r'] → Blanks s r → Blanks (c :: s) r

/-! ## Strings -/

/-- The sixteen digits, in both cases. -/
def hexRows : List (List Char) := ["0123456789abcdef".toList, "0123456789ABCDEF".toList]

/-- A hexadecimal digit and its value. -/
def IsHex (n : Nat) (c : Char) : Prop := ∃ row ∈ hexRows, row[n]? = some c

/-- Four hexadecimal digits and their value. -/
inductive Quad : Nat → List Char → List Char → Prop where
  | mk {i j k l a b c d r} : IsHex i a → IsHex j b → IsHex k c → IsHex l d →
      Quad (((i * 16 + j) * 16 + k) * 16 + l) (a :: b :: c :: d :: r) r

/-- The letters that may stand behind a backslash, and the characters they stand for. -/
def shorthands : List (Char × Char) :=
  [('"', '"'), ('\\', '\\'), ('/', '/'), ('b', '\x08'), ('f', '\x0c'), ('n', '\n'), ('r', '\r'),
    ('t', '\t')]

/-- **One character of a string.** -/
inductive Letter : Char → List Char → List Char → Prop where
  | plain {c r} : c ≠ '"' → c ≠ '\\' → ' ' ≤ c → Letter c (c :: r) r
  | short {e c r} : (e, c) ∈ shorthands → Letter c ('\\' :: e :: r) r
  | code {c s r} : Quad c.toNat s r → Letter c ('\\' :: 'u' :: s) r
  | pair {c hi lo s t r} : 0xD800 ≤ hi → hi < 0xDC00 → 0xDC00 ≤ lo → lo < 0xE000 →
      c.toNat = 0x10000 + (hi - 0xD800) * 0x400 + (lo - 0xDC00) →
      Quad hi s ('\\' :: 'u' :: t) → Quad lo t r → Letter c ('\\' :: 'u' :: s) r

/-- **The characters of a string** and its closing quote. -/
inductive Letters : List Char → List Char → List Char → Prop where
  | done {r} : Letters [] ('"' :: r) r
  | more {c cs s t r} : Letter c s t → Letters cs t r → Letters (c :: cs) s r

/-- **A string** with its quotes. -/
def Quoted (a : String) (s r : List Char) : Prop := ∃ t, Blanks s ('"' :: t) ∧ Letters a.toList t r

/-! ## Numbers -/

/-- Some digits, one at least. -/
structure Digits (ds s r : List Char) : Prop where
  eq : s = ds ++ r
  ne : ds ≠ []
  all : ∀ c ∈ ds, c.isDigit = true

/-- The digits before the point: a zero alone, or others that do not start with one. -/
inductive Whole : List Char → List Char → List Char → Prop where
  | zero {r} : Whole ['0'] ('0' :: r) r
  | digits {c ds s r} : c ≠ '0' → Digits (c :: ds) s r → Whole (c :: ds) s r

/-- The digits after the point, if there is one. -/
inductive Fraction : Option (List Char) → List Char → List Char → Prop where
  | absent {r} : Fraction none r r
  | digits {ds s r} : Digits ds s r → Fraction (some ds) ('.' :: s) r

/-- The exponent, if there is one, and whether it has a minus sign. -/
inductive Exponent : Option (Bool × List Char) → List Char → List Char → Prop where
  | absent {r} : Exponent none r r
  | plain {e ds s r} : e ∈ ['e', 'E'] → Digits ds s r → Exponent (some (false, ds)) (e :: s) r
  | plus {e ds s r} : e ∈ ['e', 'E'] → Digits ds s r → Exponent (some (false, ds)) (e :: '+' :: s) r
  | minus {e ds s r} : e ∈ ['e', 'E'] → Digits ds s r → Exponent (some (true, ds)) (e :: '-' :: s) r

/-- A numeral without its sign. -/
structure Magnitude (x : Numeral) (s r : List Char) : Prop where
  parts : ∃ t u, Whole x.whole s t ∧ Fraction x.fraction t u ∧ Exponent x.exponent u r

/-- **A number.** -/
inductive Figure : Numeral → List Char → List Char → Prop where
  | plain {x s r} : x.negative = false → Magnitude x s r → Figure x s r
  | minus {x s r} : x.negative = true → Magnitude x s r → Figure x ('-' :: s) r

/-! ## Values -/

/-- **What can be written:** a value, or what is left of an array or an object, its closing bracket
or brace included. `first` says that nothing was written of it yet. -/
inductive Phrase where
  | value (d : Datum)
  | items (first : Bool) (ds : List Datum)
  | members (first : Bool) (ms : List (String × Datum))

/-- What stands before the first element, and before another one. -/
def Comma : Bool → List Char → List Char → Prop
  | true, s, t => s = t
  | false, s, t => Blanks s (',' :: t)

/-- **How values are written.** -/
inductive Spells : Phrase → List Char → List Char → Prop where
  | null {s r} : Blanks s ('n' :: 'u' :: 'l' :: 'l' :: r) → Spells (.value .null) s r
  | yes {s r} : Blanks s ('t' :: 'r' :: 'u' :: 'e' :: r) → Spells (.value (.bool true)) s r
  | no {s r} : Blanks s ('f' :: 'a' :: 'l' :: 's' :: 'e' :: r) → Spells (.value (.bool false)) s r
  | number {x s t r} : Blanks s t → Figure x t r → Spells (.value (.number x)) s r
  | string {a s r} : Quoted a s r → Spells (.value (.string a)) s r
  | list {ds s t r} : Blanks s ('[' :: t) → Spells (.items true ds) t r →
      Spells (.value (.list ds)) s r
  | object {ms s t r} : Blanks s ('\x7b' :: t) → Spells (.members true ms) t r →
      Spells (.value (.object ms)) s r
  | endItems {first s r} : Blanks s (']' :: r) → Spells (.items first []) s r
  | item {first d ds s t u r} : Comma first s t → Spells (.value d) t u →
      Spells (.items false ds) u r → Spells (.items first (d :: ds)) s r
  | endMembers {first s r} : Blanks s ('\x7d' :: r) → Spells (.members first []) s r
  | member {first key d ms s t u v w r} : Comma first s t → Quoted key t u →
      Blanks u (':' :: v) → Spells (.value d) v w → Spells (.members false ms) w r →
      Spells (.members first ((key, d) :: ms)) s r

/-- **A text that writes a value**, and nothing else. -/
def Datum.WrittenAs (d : Datum) (text : String) : Prop :=
  ∃ r, Spells (.value d) text.toList r ∧ Blanks r []

/-! ## What comes next -/

variable {s r : List Char}

/-- What may follow a value: nothing, or one of three characters, behind blanks. -/
def Ends (s : List Char) : Prop := Blanks s [] ∨ ∃ c r, Blanks s (c :: r) ∧ c ∈ [',', ']', '\x7d']

theorem Spells.ends_items {ds : List Datum} (h : Spells (.items false ds) s r) : Ends s := by
  cases h with
  | endItems hb => exact .inr ⟨']', _, hb, by decide⟩
  | item hb _ _ => exact .inr ⟨',', _, hb, by decide⟩

theorem Spells.ends_members {ms : List (String × Datum)}
    (h : Spells (.members false ms) s r) : Ends s := by
  cases h with
  | endMembers hb => exact .inr ⟨'\x7d', _, hb, by decide⟩
  | member hb _ _ _ _ => exact .inr ⟨',', _, hb, by decide⟩

/-- **What follows a value does not go on with a number.** -/
theorem Ends.head {c : Char} (h : Ends (c :: r)) :
    c.isDigit = false ∧ c ≠ '.' ∧ c ≠ 'e' ∧ c ≠ 'E' := by
  have hall : ∀ c ∈ [' ', '\t', '\n', '\r'] ++ [',', ']', '\x7d'],
      c.isDigit = false ∧ c ≠ '.' ∧ c ≠ 'e' ∧ c ≠ 'E' := by simp
  refine hall c ?_
  rcases h with hb | ⟨d, t, hb, hd⟩
  · cases hb with
    | more hc _ => exact List.mem_append_left _ hc
  · cases hb with
    | done => exact List.mem_append_right _ hd
    | more hc _ => exact List.mem_append_left _ hc

theorem Blanks.skip_eq (h : Blanks s r) : skipBlanks s = skipBlanks r := by
  induction h with
  | done => rfl
  | more hc _ ih =>
    have hblank : ∀ c ∈ [' ', '\t', '\n', '\r'], isBlank c = true := by simp [isBlank]
    rw [← ih]
    exact List.dropWhile_cons_of_pos (hblank _ hc)

/-- Blanks are skipped up to a character that is none. -/
theorem Blanks.skip {c : Char} (h : Blanks s (c :: r)) (hc : isBlank c = false) :
    skipBlanks s = c :: r := by
  rw [h.skip_eq]
  exact List.dropWhile_cons_of_neg (by simp [hc])

end PaneRelay.Json
