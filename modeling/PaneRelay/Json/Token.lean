import PaneRelay.Json.Fault
import PaneRelay.Text.Step

/-! # Words, strings and numbers in JSON

Each reader takes its token off the front of a text and returns the rest, which is shorter. A value
that is not wanted is read for its form only: half surrogates may stand alone in it and numbers may
have any size.

* `readWord`, `readString`, `readNumeral`: the tokens.
* `Numeral.value`: the number a numeral denotes. -/

namespace PaneRelay.Json

open PaneRelay.Text

/-- **What a value is read for.** -/
inductive Use where
  /-- The value is wanted. -/
  | wanted
  /-- Only its form is checked. -/
  | skipped
deriving DecidableEq, Repr

/-! ## Blanks and words -/

/-- The four blanks that may stand between tokens. -/
def isBlank (c : Char) : Bool := c = ' ' || c = '\t' || c = '\n' || c = '\r'

/-- A text without the blanks at its front. -/
def skipBlanks (s : List Char) : List Char := s.dropWhile isBlank

theorem skipBlanks_length_le (s : List Char) : (skipBlanks s).length ≤ s.length :=
  (List.dropWhile_sublist isBlank).length_le

theorem cons_le_of_skipBlanks {s r : List Char} {c : Char} (h : skipBlanks s = c :: r) :
    (c :: r).length ≤ s.length := by
  rw [← h]; exact skipBlanks_length_le s

theorem lt_of_skipBlanks {s r : List Char} {c : Char} (h : skipBlanks s = c :: r) :
    r.length < s.length := cons_le_of_skipBlanks h

theorem le_of_skipBlanks {s r : List Char} {c : Char} (h : skipBlanks s = c :: r) :
    r.length ≤ s.length := Nat.le_of_lt (lt_of_skipBlanks h)

/-- Reads the rest `w` of a word. -/
def readWord : (w s : List Char) → Except Fault (Rest s)
  | [], s => .ok (.whole s)
  | _ :: _, [] => .error (.before .eofValue [])
  | a :: w, c :: s =>
    if a = c then
      match readWord w s with
      | .ok r => .ok (r.after c)
      | .error e => .error e
    else .error (.atFirst .expectedIdent (c :: s))

/-! ## Strings -/

/-- The value of a hexadecimal digit. -/
def hexValue? (c : Char) : Option Nat :=
  if '0' ≤ c ∧ c ≤ '9' then some (c.toNat - 48)
  else if 'a' ≤ c ∧ c ≤ 'f' then some (c.toNat - 87)
  else if 'A' ≤ c ∧ c ≤ 'F' then some (c.toNat - 55)
  else none

/-- The value of four hexadecimal digits. -/
def hexQuad? (a b c d : Char) : Option Nat := do
  let a ← hexValue? a
  let b ← hexValue? b
  let c ← hexValue? c
  let d ← hexValue? d
  return ((a * 16 + b) * 16 + c) * 16 + d

/-- The fault of four bytes that are no hexadecimal digits: the four are taken before it shows. -/
def badHex (s : List Char) : Fault :=
  if byteCount s < 4 then .before .eofString [] else ⟨.invalidEscape, some (byteCount s - 4)⟩

/-- Reads four hexadecimal digits. -/
def readHex (s : List Char) : Except Fault (Step s Nat) :=
  match s with
  | a :: b :: c :: d :: r =>
    match hexQuad? a b c d with
    | some n => .ok ((((Step.first d r n).after c).after b).after a)
    | none => .error (badHex s)
  | _ => .error (badHex s)

/-- First halves of surrogate pairs. -/
def isLeading (n : Nat) : Bool := 0xD800 ≤ n && n ≤ 0xDBFF

/-- Second halves of surrogate pairs. -/
def isTrailing (n : Nat) : Bool := 0xDC00 ≤ n && n ≤ 0xDFFF

/-- The character of a surrogate pair. -/
def joinPair (hi lo : Nat) : Char := Char.ofNat (0x10000 + (hi - 0xD800) * 0x400 + (lo - 0xDC00))

/-- The character that stands for half a pair in a string that is not wanted. -/
def placeholder : Char := Char.ofNat 0xFFFD

/-- Reads what follows `\u`. -/
def readUnicode (use : Use) (s : List Char) : Except Fault (Step s Char) := do
  let ⟨n, r, h⟩ ← readHex s
  if use = .skipped then
    return ⟨if isLeading n || isTrailing n then placeholder else Char.ofNat n, r, h⟩
  if isTrailing n then throw (.before .loneSurrogate r)
  if !isLeading n then return ⟨Char.ofNat n, r, h⟩
  match r, h with
  | [], _ => throw (.before .eofString [])
  | '\\' :: [], _ => throw (.before .eofString [])
  | '\\' :: 'u' :: r', h =>
    let ⟨n', r'', h'⟩ ← readHex r'
    if isTrailing n' then
      return (((Step.mk (joinPair n n') r'' h').after 'u').after '\\').within h
    throw (.before .loneSurrogate r'')
  | '\\' :: c :: r', _ => throw (.atFirst .brokenSurrogate (c :: r'))
  | c :: r', _ => throw (.atFirst .brokenSurrogate (c :: r'))

/-- The character that a letter after a backslash denotes. -/
def escaped? (c : Char) : Option Char :=
  if c = '"' ∨ c = '\\' ∨ c = '/' then some c
  else if c = 'b' then some '\x08'
  else if c = 'f' then some '\x0c'
  else if c = 'n' then some '\n'
  else if c = 'r' then some '\r'
  else if c = 't' then some '\t'
  else none

/-- Reads what follows a backslash. -/
def readEscape (use : Use) (s : List Char) : Except Fault (Step s Char) :=
  match s with
  | [] => .error (.before .eofString [])
  | 'u' :: r => do
    let x ← readUnicode use r
    return x.after 'u'
  | c :: r =>
    match escaped? c with
    | some d => .ok (.first c r d)
    | none => .error (.atFirst .invalidEscape (c :: r))

/-- **Reads a string** after its opening quote, to its closing quote. -/
def readString (use : Use) (s : List Char) : Except Fault (Step s (List Char)) :=
  match s with
  | [] => .error (.before .eofString [])
  | '"' :: r => .ok (.first '"' r [])
  | '\\' :: r =>
    match readEscape use r with
    | .error e => .error e
    | .ok ⟨c, r', h⟩ =>
      match readString use r' with
      | .error e => .error e
      | .ok x => .ok (((x.map (c :: ·)).within h).after '\\')
  | c :: r =>
    if c < ' ' then .error (.before .controlCharacter (if use = .wanted then r else c :: r))
    else
      match readString use r with
      | .error e => .error e
      | .ok x => .ok ((x.map (c :: ·)).after c)
termination_by s.length

/-! ## Numbers -/

/-- **A numeral as it is written.** -/
structure Numeral where
  /-- Whether it starts with a minus sign. -/
  negative : Bool
  /-- The digits before the point. -/
  whole : List Char
  /-- The digits after the point, if there is one. -/
  fraction : Option (List Char)
  /-- The exponent's sign (true for minus) and digits, if there is one. -/
  exponent : Option (Bool × List Char)
deriving DecidableEq, Repr

/-- The fault of a number that lacks a digit. -/
def lacksDigit (use : Use) (s : List Char) : Fault :=
  if s = [] ∧ use = .wanted then .before .eofValue [] else .atFirst .invalidNumber s

/-- The digits at the front of a text. -/
def digits (s : List Char) : List Char := s.takeWhile Char.isDigit

/-- A text without the digits at its front. -/
def afterDigits (s : List Char) : List Char := s.dropWhile Char.isDigit

theorem afterDigits_length_le (s : List Char) : (afterDigits s).length ≤ s.length :=
  (List.dropWhile_sublist Char.isDigit).length_le

/-- A text without the digits at its front, as a rest of it. -/
def skipDigits (s : List Char) : Rest s := ⟨afterDigits s, afterDigits_length_le s⟩

/-- Reads the sign of an exponent, if there is one: whether it is a minus. -/
def readSign (s : List Char) : Bool × Rest s :=
  match s with
  | '+' :: r => (false, (Rest.whole r).after '+')
  | '-' :: r => (true, (Rest.whole r).after '-')
  | r => (false, .whole r)

/-- Reads the exponent of a number, if one follows. -/
def readExponent (use : Use) (s : List Char) :
    Except Fault (Option (Bool × List Char) × Rest s) :=
  match s with
  | c :: r =>
    if c = 'e' ∨ c = 'E' then
      let (down, ⟨r', h⟩) := readSign r
      if digits r' = [] then .error (lacksDigit use r')
      else .ok (some (down, digits r'), ((skipDigits r').within h).after c)
    else .ok (none, .whole (c :: r))
  | [] => .ok (none, .whole [])

/-- Reads the fraction of a number, if one follows. -/
def readFraction (use : Use) (s : List Char) : Except Fault (Option (List Char) × Rest s) :=
  match s with
  | '.' :: r =>
    if digits r = [] then .error (lacksDigit use r)
    else .ok (some (digits r), (skipDigits r).after '.')
  | r => .ok (none, .whole r)

/-- Reads the digits before the point: a zero alone, or digits that start with another. -/
def readWhole (use : Use) (s : List Char) : Except Fault (Step s (List Char)) :=
  match s with
  | '0' :: r =>
    if digits r = [] then .ok (.first '0' r ['0']) else .error (.atFirst .invalidNumber r)
  | c :: r =>
    if c.isDigit then .ok ((skipDigits r).step c (c :: digits r))
    else .error (lacksDigit use (c :: r))
  | [] => .error (lacksDigit use [])

theorem lt_of_le_le_lt {k l m n : Nat} (h3 : k ≤ l) (h2 : l ≤ m) (h1 : m < n) : k < n :=
  Nat.lt_of_le_of_lt (Nat.le_trans h3 h2) h1

/-- **Reads a numeral** after its sign. -/
def readNumeral (use : Use) (negative : Bool) (s : List Char) : Except Fault (Step s Numeral) := do
  let ⟨whole, r1, h1⟩ ← readWhole use s
  let (fraction, ⟨r2, h2⟩) ← readFraction use r1
  let (exponent, ⟨r3, h3⟩) ← readExponent use r2
  return ⟨⟨negative, whole, fraction, exponent⟩, r3, lt_of_le_le_lt h3 h2 h1⟩

/-! ## The value of a numeral -/

/-- The largest whole number that is kept exactly. -/
def maxWhole : Nat := 0xffffffffffffffff

/-- The value of a digit. -/
def digitValue (c : Char) : Nat := c.toNat - 48

/-- The whole part in at most 64 bits, and how many of its last digits did not fit. -/
def wholeValue (ds : List Char) : Nat × Nat :=
  ds.foldl (fun (n, lost) c =>
    if lost = 0 ∧ n * 10 + digitValue c ≤ maxWhole then (n * 10 + digitValue c, 0)
    else (n, lost + 1)) (0, 0)

/-- Goes on with the digits after the point as long as they fit; returns how many did. -/
def fractionValue (n : Nat) : List Char → Nat × Nat
  | [] => (n, 0)
  | c :: ds =>
    if n * 10 + digitValue c ≤ maxWhole then
      let (m, k) := fractionValue (n * 10 + digitValue c) ds
      (m, k + 1)
    else (n, 0)

/-- The largest power of ten that a finite number reaches. -/
def maxPower : Nat := 308

/-- `n / 10 ^ k` in two rounded steps or more, each division being by at most `10 ^ 308`. -/
def shrink (x : Binary64) (k : Nat) : Binary64 :=
  if x.isZero then x
  else if k ≤ maxPower then x.div (.ofDecimal false 1 k)
  else shrink (x.div (.ofDecimal false 1 maxPower)) (k - maxPower)
termination_by k
decreasing_by
  have : 0 < maxPower := by decide
  omega

/-- The number `n * 10 ^ e`, rounded at each step; `none` if it is too large. -/
def scale? (negative : Bool) (n : Nat) (e : Int) : Option Binary64 :=
  let x := Binary64.ofRatio negative n 1
  if 0 ≤ e then
    if e.toNat ≤ maxPower then
      let y := x.mul (.ofDecimal false 1 e)
      if y.isInfinite then none else some y
    else if x.isZero then some x else none
  else some (shrink x (-e).toNat)

/-- The largest exponent that is taken into account. -/
def maxExponent : Nat := 0x7fffffff

/-- The value of an exponent's digits, or how many of them are left where it grows too large. -/
def exponentValue (n : Nat) : List Char → Except Nat Nat
  | [] => .ok n
  | c :: ds =>
    if n * 10 + digitValue c ≤ maxExponent then exponentValue (n * 10 + digitValue c) ds
    else .error ds.length

/-- **The number that a numeral denotes.** Of a number out of range, how many of the numeral's last
characters were not taken when that showed. -/
def Numeral.value (x : Numeral) : Except Nat Number :=
  let (n, lost) := wholeValue x.whole
  match x.fraction, x.exponent, lost with
  | none, none, 0 =>
    if !x.negative then .ok (.whole n)
    else if n = 0 ∨ 0x8000000000000000 < n then .ok (.real (.ofRatio true n 1))
    else .ok (.minus n)
  | _, _, _ =>
    let (n, used) := fractionValue n (x.fraction.getD [])
    let start : Int := lost - used
    let real (e : Int) : Except Nat Number :=
      match scale? x.negative n e with
      | some y => .ok (.real y)
      | none => .error 0
    match x.exponent with
    | none => real start
    | some (down, ds) =>
      match exponentValue 0 ds with
      | .ok e => real (if down then start - e else start + e)
      | .error left =>
        if n ≠ 0 ∧ !down then .error left else .ok (.real (.finite x.negative 0 Binary64.minExp))

/-- Reads a number after its sign. -/
def readNumber (negative : Bool) (s : List Char) : Except Fault (Step s Number) := do
  let ⟨x, r, h⟩ ← readNumeral .wanted negative s
  match x.value with
  | .ok n => return ⟨n, r, h⟩
  | .error left => throw ⟨.numberOutOfRange, some (byteCount r + left)⟩

end PaneRelay.Json
