import PaneRelay.Config.Setting
import PaneRelay.Toml.Token

/-! # Numbers, dates and words in TOML

A value that is neither quoted nor bracketed is one word: a run of letters, digits and a few marks.
What it means depends on the word alone. A date and a time may also be two words with a space
between them.

* `scalar?`: the setting that a word denotes.
* `readScalar`: reads one. -/

namespace PaneRelay.Toml

open PaneRelay.Config PaneRelay.Text

/-! ## Digits -/

/-- Digits without the underscores between them; an underscore stands between two digits. -/
def ungroup (isDigit : Char → Bool) : (after : Bool) → List Char → Option (List Char)
  | after, [] => if after then some [] else none
  | after, c :: r =>
    if c = '_' then if after then ungroup isDigit false r else none
    else if isDigit c then (ungroup isDigit true r).map (c :: ·)
    else none

/-- The digits of a number in a base, without underscores. -/
def digits? (base : Nat) (s : List Char) : Option (List Char) :=
  ungroup (fun c => match Json.hexValue? c with
    | some d => d < base
    | none => false) false s

/-- The digits of a decimal whole number, which has no leading zero. -/
def whole? (s : List Char) : Option (List Char) :=
  if s.head? = some '0' && s.length ≠ 1 then none else digits? 10 s

/-- The number that digits denote in a base. -/
def numberOf (base : Nat) (ds : List Char) : Nat :=
  ds.foldl (fun n c => n * base + (Json.hexValue? c).getD 0) 0

/-- A word without its sign, and whether that was a minus. -/
def unsign (s : List Char) : Bool × List Char :=
  match s with
  | '-' :: r => (true, r)
  | '+' :: r => (false, r)
  | r => (false, r)

/-! ## Numbers -/

/-- A whole number in 64 bits with a sign. -/
def inRange? (n : Int) : Option Setting :=
  if -0x8000000000000000 ≤ n ∧ n < 0x8000000000000000 then some (.signed n) else none

/-- **A whole number:** decimal with a sign, or in another base without. -/
def integer? (s : List Char) : Option Setting :=
  let other (base : Nat) (r : List Char) : Option Setting :=
    (digits? base r).bind fun ds => inRange? (numberOf base ds)
  match s with
  | '0' :: 'x' :: r => other 16 r
  | '0' :: 'o' :: r => other 8 r
  | '0' :: 'b' :: r => other 2 r
  | s =>
    let (negative, r) := unsign s
    (whole? r).bind fun ds =>
      let n : Int := numberOf 10 ds
      inRange? (if negative then -n else n)

/-- An exponent. -/
def exponent? (s : List Char) : Option Int :=
  let (negative, r) := unsign s
  (digits? 10 r).map fun ds =>
    let n : Int := numberOf 10 ds
    if negative then -n else n

/-- Splits a word before the first character that passes a test. -/
def splitAt (test : Char → Bool) (s : List Char) : List Char × List Char :=
  (s.takeWhile fun c => !test c, s.dropWhile fun c => !test c)

/-- Whether a letter marks an exponent. -/
def marksExponent (c : Char) : Bool := c = 'e' || c = 'E'

/-- **A number with a point or an exponent.** One too large is refused, unless it is negative. -/
def real? (s : List Char) : Option Setting := do
  let (negative, r) := unsign s
  if r = ['i', 'n', 'f'] then return .real (.infinite negative)
  if r = ['n', 'a', 'n'] then return .real .nan
  let (front, power) := splitAt marksExponent r
  let (whole, fraction) := splitAt (fun c => c = '.') front
  let ds ← whole? whole
  let fs ← match fraction with
    | [] => some []
    | _ :: fraction => digits? 10 fraction
  let e ← match power with
    | [] => some 0
    | _ :: power => exponent? power
  if fraction.isEmpty && power.isEmpty then none
  let x := Binary64.ofDigits negative (numberOf 10 (ds ++ fs)) (ds ++ fs).length (e - fs.length)
  if x = .infinite false then none else return .real x

/-! ## Dates and times -/

/-- The number in a run of exactly `n` digits. -/
def fixed? (n : Nat) (s : List Char) : Option Nat :=
  if s.length = n ∧ s.all Char.isDigit then some (numberOf 10 s) else none

/-- How many days a month has. -/
def daysIn (year month : Nat) : Nat :=
  if month = 2 then
    if (year % 4 = 0 ∧ year % 100 ≠ 0) ∨ year % 400 = 0 then 29 else 28
  else if [4, 6, 9, 11].contains month then 30 else 31

/-- Whether a word is a date. -/
def isDate (s : List Char) : Bool :=
  match fixed? 4 (s.take 4), s.drop 4 with
  | some year, '-' :: m1 :: m2 :: '-' :: r =>
    match fixed? 2 [m1, m2], fixed? 2 r with
    | some month, some day =>
      1 ≤ month && month ≤ 12 && 1 ≤ day && day ≤ daysIn year month
    | _, _ => false
  | _, _ => false

/-- Whether a word is hours and minutes, and what follows them. -/
def afterMinutes? (s : List Char) : Option (List Char) :=
  match s with
  | h1 :: h2 :: ':' :: m1 :: m2 :: r =>
    match fixed? 2 [h1, h2], fixed? 2 [m1, m2] with
    | some h, some m => if h ≤ 23 ∧ m ≤ 59 then some r else none
    | _, _ => none
  | _ => none

/-- Whether a word is a time of day, and what follows it. -/
def afterTime? (s : List Char) : Option (List Char) := do
  match ← afterMinutes? s with
  | ':' :: s1 :: s2 :: r =>
    if (← fixed? 2 [s1, s2]) ≤ 60 then
      match r with
      | '.' :: f => if f.head?.any Char.isDigit then f.dropWhile Char.isDigit else none
      | r => r
    else none
  | _ => none

/-- Whether a word is an offset from universal time, or nothing. -/
def isOffset (s : List Char) : Bool :=
  match s with
  | [] => true
  | [c] => c = 'Z' || c = 'z'
  | c :: r => (c = '+' || c = '-') && afterMinutes? r = some []

/-- Whether a word is a time of day, with an offset if one may follow. -/
def isTime (offset : Bool) (s : List Char) : Bool :=
  match afterTime? s with
  | some r => if offset then isOffset r else r.isEmpty
  | none => false

/-- Whether a word is a date, a time of day, or both. -/
def isMoment (s : List Char) : Bool :=
  isDate s || isTime false s ||
    (isDate (s.take 10) &&
      match s.drop 10 with
      | 'T' :: r => isTime true r
      | 't' :: r => isTime true r
      | ' ' :: r => isTime true r
      | _ => false)

/-- A moment is a table with its text under a key of its own. -/
def moment (s : List Char) : Setting :=
  .table [("moment", .text (String.ofList s))]

/-! ## Words -/

/-- **The setting that a word denotes.** -/
def scalar? (s : List Char) : Option Setting :=
  if s = ['t', 'r', 'u', 'e'] then some (.bool true)
  else if s = ['f', 'a', 'l', 's', 'e'] then some (.bool false)
  else if isMoment s then some (moment s)
  else real? s <|> integer? s

/-- The characters of a word. -/
def isWordChar (c : Char) : Bool :=
  c.isAlphanum || c = '_' || c = '+' || c = '-' || c = '.' || c = ':'

/-- Whether a date is followed by a space and a digit, so that a time comes next. -/
def timeFollows (word rest : List Char) : Bool :=
  isDate word &&
    match rest with
    | ' ' :: c :: _ => c.isDigit
    | _ => false

theorem length_drop_le (n : Nat) (s : List Char) : (s.drop n).length ≤ s.length :=
  (List.drop_sublist n s).length_le

/-- **Reads a number, a date or a word.** -/
def readScalar (s : List Char) : Option (Step s Setting) :=
  match s with
  | [] => none
  | c :: r =>
    if !isWordChar c then none
    else
      let word := c :: r.takeWhile isWordChar
      let ⟨t, h⟩ := dropFront isWordChar r
      if timeFollows word t then
        let more := ' ' :: (t.drop 1).takeWhile isWordChar
        let u := (dropFront isWordChar (t.drop 1)).within (length_drop_le 1 t)
        (scalar? (word ++ more)).map fun v => (u.within h).step c v
      else (scalar? word).map fun v => Rest.step c v ⟨t, h⟩

end PaneRelay.Toml
