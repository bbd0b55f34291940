/-! # Fields

When a word is used, its parts become characters that remember where they came from. Characters out
of a value that is not quoted may split the word into several fields or into none.

* `Atom`: a character with its origin, or a mark.
* `fieldsOf`: the fields of a word.
* `Pattern`: words that stand for several texts, and `Pattern.fits`. -/

namespace PaneRelay.Shell

/-- **Where a character comes from.** -/
inductive Origin where
  /-- It was quoted. -/
  | quoted
  /-- It was written as it is. -/
  | written
  /-- It is part of a value. -/
  | value
deriving DecidableEq

/-- **A character of a word, or a mark.** -/
inductive Atom where
  /-- A character. -/
  | char (c : Char) (o : Origin)
  /-- Something is quoted here, which makes a field even if it is empty. -/
  | quote
  /-- One field ends and another starts. -/
  | edge
deriving DecidableEq

namespace Atom

/-- A text all of one origin. -/
def ofText (s : List Char) (o : Origin) : List Atom :=
  let cs := s.map fun c => Atom.char c o
  if o = .quoted then .quote :: cs else cs

/-- The same atom between quotes. -/
def quotedOf : Atom → Atom
  | .char c _ => .char c .quoted
  | a => a

/-- The same atom as part of a value, unless it is quoted. -/
def valueOf : Atom → Atom
  | .char c .written => .char c .value
  | a => a

/-- The text of a word that is not split. -/
def text (l : List Atom) : List Char :=
  l.filterMap fun a =>
    match a with
    | .char c _ => some c
    | .quote => none
    | .edge => some ' '

end Atom

/-- Whether a character is a blank among those that split words. -/
def isSplitBlank (ifs : List Char) (c : Char) : Bool :=
  ifs.contains c && (c = ' ' || c = '\t' || c = '\n')

/-- The field that is not finished, which is kept back to front. -/
def finished (cur : Option (List Char)) : List (List Char) := (cur.map List.reverse).toList

/-- The fields after one that is not finished. -/
def fieldsFrom (ifs : List Char) : Option (List Char) → List Atom → List (List Char)
  | cur, [] => finished cur
  | cur, .quote :: l => fieldsFrom ifs (some (cur.getD [])) l
  | cur, .edge :: l => finished cur ++ fieldsFrom ifs none l
  | cur, .char c o :: l =>
    if o = .value && ifs.contains c then
      if isSplitBlank ifs c then finished cur ++ fieldsFrom ifs none l
      else (cur.getD []).reverse :: fieldsFrom ifs none l
    else fieldsFrom ifs (some (c :: cur.getD [])) l

/-- **The fields of a word.** -/
def fieldsOf (ifs : List Char) (l : List Atom) : List (List Char) := fieldsFrom ifs none l

/-! ## Lines shared out -/

/-- A line without the blanks at its end. -/
def trimEnd (ifs : List Char) (l : List (Char × Bool)) : List (Char × Bool) :=
  (l.reverse.dropWhile fun (c, plain) => plain && isSplitBlank ifs c).reverse

/-- **A line shared out** among so many variables, the last of which gets all that is left. -/
def share (ifs : List Char) : Nat → List (Char × Bool) → List (List Char)
  | 0, _ => []
  | n + 1, l =>
    let blank (x : Char × Bool) : Bool := x.2 && isSplitBlank ifs x.1
    let l := l.dropWhile blank
    match n with
    | 0 => [(trimEnd ifs l).map Prod.fst]
    | n + 1 =>
      let inField (x : Char × Bool) : Bool := !(x.2 && ifs.contains x.1)
      let rest := (l.dropWhile inField).dropWhile blank
      let rest := match rest with
        | x :: r => if inField x then rest else r
        | [] => []
      (l.takeWhile inField).map Prod.fst :: share ifs (n + 1) rest

/-! ## Patterns -/

/-- **A part of a pattern.** -/
inductive Pattern where
  /-- Any text. -/
  | any
  /-- Any character. -/
  | one
  /-- One of some ranges of characters, or none of them. -/
  | oneOf (negated : Bool) (ranges : List (Char × Char))
  /-- A character. -/
  | char (c : Char)

namespace Pattern

/-- The ranges of characters up to a closing bracket. -/
def ranges : List Atom → List (Char × Char)
  | .char a _ :: .char '-' .written :: .char b o :: l =>
    if b = ']' && o = .written then [(a, a), ('-', '-')] else (a, b) :: ranges l
  | .char a _ :: l => (a, a) :: ranges l
  | _ :: l => ranges l
  | [] => []

/-- The pattern that a word stands for; what is quoted stands for itself. -/
def ofAtoms : List Atom → List Pattern
  | [] => []
  | .char c .quoted :: l => .char c :: ofAtoms l
  | .char '*' _ :: l => .any :: ofAtoms l
  | .char '?' _ :: l => .one :: ofAtoms l
  | .char '[' _ :: l =>
    let isEnd (a : Atom) : Bool := a = .char ']' .written
    let (negated, body) := match l with
      | .char '!' _ :: r => (true, r)
      | r => (false, r)
    let set := body.takeWhile fun a => !isEnd a
    if set.length < body.length then
      .oneOf negated (ranges set) :: ofAtoms (l.drop (l.length - body.length + set.length + 1))
    else .char '[' :: ofAtoms l
  | .char c _ :: l => .char c :: ofAtoms l
  | _ :: l => ofAtoms l
termination_by l => l.length
decreasing_by all_goals simp only [List.length_cons, List.length_drop]; omega

/-- **Whether a text fits a pattern.** -/
def fits : List Pattern → List Char → Bool
  | [], s => s.isEmpty
  | .any :: ps, [] => fits ps []
  | .any :: ps, c :: s => fits ps (c :: s) || fits (.any :: ps) s
  | .one :: ps, _ :: s => fits ps s
  | .oneOf negated set :: ps, c :: s =>
    (set.any (fun (a, b) => a ≤ c && c ≤ b) != negated) && fits ps s
  | .char d :: ps, c :: s => d = c && fits ps s
  | _ :: _, [] => false
termination_by ps s => ps.length + s.length

/-- The text without the shortest or the longest front that fits. -/
def withoutFront (longest : Bool) (ps : List Pattern) (s : List Char) : List Char :=
  let cuts := (List.range (s.length + 1)).filter fun n => fits ps (s.take n)
  match (if longest then cuts.getLast? else cuts.head?) with
  | some n => s.drop n
  | none => s

/-- The text without the shortest or the longest end that fits. -/
def withoutEnd (longest : Bool) (ps : List Pattern) (s : List Char) : List Char :=
  let cuts := (List.range (s.length + 1)).filter fun n => fits ps (s.drop n)
  match (if longest then cuts.head? else cuts.getLast?) with
  | some n => s.take n
  | none => s

end Pattern

end PaneRelay.Shell
