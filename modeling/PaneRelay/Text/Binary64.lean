/-! # Binary floating-point numbers and their shortest decimals

Numbers of 53 significant bits as exact values `m · 2^e`, without machine arithmetic.

* `Binary64.ofRatio`: the number nearest to a quotient, ties to the even neighbour.
* `Binary64.ofDigits`: the number that a decimal numeral denotes.
* `Binary64.mul`, `Binary64.div`: rounded products and quotients.
* `Decimal.ofBinary64`: the fewest digits that read back, and of those the nearest.
* `Binary64.positional`, `Binary64.scientific`: the two ways in which messages write a number. -/

namespace PaneRelay.Text

/-- **A binary floating-point number.** A finite one has the value `mant * 2 ^ exp`. -/
inductive Binary64 where
  /-- A finite number; zero has a sign too. -/
  | finite (negative : Bool) (mant : Nat) (exp : Int)
  /-- A number beyond the largest finite one. -/
  | infinite (negative : Bool)
  /-- No number. -/
  | nan
deriving DecidableEq, Repr

namespace Binary64

/-- The least exponent of a finite number. -/
def minExp : Int := -1074

/-- The largest exponent of a finite number whose mantissa has 53 bits. -/
def maxExp : Int := 971

/-- The quotient of two naturals rounded to the nearest natural, ties to the even one. -/
def roundDiv (num den : Nat) : Nat :=
  let q := num / den
  let r := num % den
  if 2 * r < den then q
  else if den < 2 * r then q + 1
  else if q % 2 = 0 then q else q + 1

/-- `num / den / 2 ^ e` as a quotient of naturals. -/
def scaled (num den : Nat) (e : Int) : Nat × Nat :=
  if 0 ≤ e then (num, den * Nat.pow 2 e.toNat) else (num * Nat.pow 2 (-e).toNat, den)

/-- The exponent that gives `num / den` a mantissa of 53 bits, or the least exponent. -/
def exponentFor (num den : Nat) : Int :=
  let e : Int := (num.log2 : Int) - (den.log2 : Int) - 52
  let (n, d) := scaled num den e
  max minExp (if n / d < 0x10000000000000 then e - 1 else e)

/-- The number nearest to `num / den`. -/
def ofRatio (negative : Bool) (num den : Nat) : Binary64 :=
  if num = 0 then .finite negative 0 minExp
  else
    let e := exponentFor num den
    let (n, d) := scaled num den e
    let m := roundDiv n d
    let (m, e) := if m = 0x20000000000000 then (0x10000000000000, e + 1) else (m, e)
    if maxExp < e then .infinite negative else .finite negative m e

/-- The number nearest to `digits * 10 ^ exp`. -/
def ofDecimal (negative : Bool) (digits : Nat) (exp : Int) : Binary64 :=
  if 0 ≤ exp then ofRatio negative (digits * Nat.pow 10 exp.toNat) 1
  else ofRatio negative digits (Nat.pow 10 (-exp).toNat)

/-- The number nearest to `digits * 10 ^ exp`, where `digits` was written with at most `width`
decimal digits. Powers far out of range are not computed. -/
def ofDigits (negative : Bool) (digits width : Nat) (exp : Int) : Binary64 :=
  if digits = 0 ∨ (width : Int) + exp < -400 then .finite negative 0 minExp
  else if 400 < exp then .infinite negative
  else ofDecimal negative digits exp

/-- The rounded product of two finite numbers; only the sign of the first counts. -/
def mul (x y : Binary64) : Binary64 :=
  match x, y with
  | .finite s m e, .finite _ n f =>
    let k := e + f
    if 0 ≤ k then ofRatio s (m * n * Nat.pow 2 k.toNat) 1
    else ofRatio s (m * n) (Nat.pow 2 (-k).toNat)
  | x, _ => x

/-- The rounded quotient of two finite numbers; only the sign of the first counts. -/
def div (x y : Binary64) : Binary64 :=
  match x, y with
  | .finite s m e, .finite _ n f =>
    let k := e - f
    if 0 ≤ k then ofRatio s (m * Nat.pow 2 k.toNat) n else ofRatio s m (n * Nat.pow 2 (-k).toNat)
  | x, _ => x

/-- Whether a number is zero. -/
def isZero : Binary64 → Bool
  | .finite _ m _ => m == 0
  | _ => false

/-- Whether a number is beyond the largest finite one. -/
def isInfinite : Binary64 → Bool
  | .infinite _ => true
  | _ => false

end Binary64

/-! ## Shortest decimals -/

/-- **A decimal** `digits * 10 ^ exp`. -/
structure Decimal where
  /-- The digits as one natural. -/
  digits : Nat
  /-- The power of ten. -/
  exp : Int
deriving DecidableEq, Repr

namespace Decimal

/-- The sides of a comparison of `a * 2 ^ e` with `d * 10 ^ k`, cleared of denominators. -/
def sides (a : Nat) (e : Int) (d : Nat) (k : Int) : Nat × Nat :=
  let l :=
    a * (if 0 ≤ e then Nat.pow 2 e.toNat else 1) * (if 0 ≤ k then 1 else Nat.pow 10 (-k).toNat)
  let r :=
    d * (if 0 ≤ k then Nat.pow 10 k.toNat else 1) * (if 0 ≤ e then 1 else Nat.pow 2 (-e).toNat)
  (l, r)

/-- `⌊m * 2 ^ e / 10 ^ k⌋`. -/
def floorAt (m : Nat) (e k : Int) : Nat :=
  let (l, r) := sides m e 1 k
  l / r

/-- Whether `d * 10 ^ k` reads back as the number with mantissa `m > 0` and exponent `e`: it lies
between the midpoints to the neighbours, which count if the mantissa is even. Below a power of two
the lower neighbour is twice as near. -/
def readsBack (m : Nat) (e : Int) (d : Nat) (k : Int) : Bool :=
  let (hiL, hiR) := sides (2 * m + 1) (e - 1) d k
  let low :=
    if m = 0x10000000000000 ∧ Binary64.minExp < e then (4 * m - 1, e - 2) else (2 * m - 1, e - 1)
  let (loL, loR) := sides low.1 low.2 d k
  if m % 2 = 0 then loL ≤ loR && hiR ≤ hiL else loL < loR && hiR < hiL

/-- The neighbour of `m * 2 ^ e` on the grid of multiples of `10 ^ k` that reads back, if one does;
of two the nearer, in a tie the even one. -/
def onGrid? (m : Nat) (e k : Int) : Option Decimal :=
  let d := floorAt m e k
  match readsBack m e d k, readsBack m e (d + 1) k with
  | false, false => none
  | true, false => some ⟨d, k⟩
  | false, true => some ⟨d + 1, k⟩
  | true, true =>
    let (l, r) := sides (2 * m) e (2 * d + 1) k
    if l < r then some ⟨d, k⟩
    else if r < l then some ⟨d + 1, k⟩
    else if d % 2 = 0 then some ⟨d, k⟩ else some ⟨d + 1, k⟩

/-- How many digits a natural has. -/
def width (n : Nat) : Nat := (Nat.toDigits 10 n).length

/-- The power of ten of the leading digit of `m * 2 ^ e`. -/
def leading (m : Nat) (e : Int) : Int :=
  let (l, r) := sides m e 1 0
  if r ≤ l then (width (l / r) : Int) - 1
  else
    let up := width (r / l) + 1
    (width (l * Nat.pow 10 up / r) : Int) - 1 - up

/-- Drops trailing zeros of the digits, at most `fuel` of them. -/
def strip : Nat → Decimal → Decimal
  | 0, d => d
  | fuel + 1, d =>
    if d.digits ≠ 0 ∧ d.digits % 10 = 0 then strip fuel ⟨d.digits / 10, d.exp + 1⟩ else d

/-- The shortest decimal that reads back as `m * 2 ^ e`. -/
def shortest (m : Nat) (e : Int) : Decimal :=
  let top := leading m e
  match (List.range 17).findSome? (fun (i : Nat) => onGrid? m e (top - (i : Int))) with
  | some d => strip 20 d
  | none => ⟨floorAt m e (top - 17), top - 17⟩

end Decimal

/-! ## Texts of numbers -/

namespace Binary64

/-- The digits of a natural. -/
def digitsOf (n : Nat) : String := String.ofList (Nat.toDigits 10 n)

/-- A run of zeros. -/
def zeros (n : Nat) : String := String.ofList (List.replicate n '0')

/-- The sign as it is written. -/
def sign (negative : Bool) : String := if negative then "-" else ""

/-- A positive decimal without an exponent; `whole` closes the text of a whole number. -/
def expanded (d : Decimal) (whole : String) : String :=
  let digits := Nat.toDigits 10 d.digits
  let point : Int := digits.length + d.exp
  if 0 ≤ d.exp then String.ofList digits ++ zeros d.exp.toNat ++ whole
  else if 0 < point then
    String.ofList (digits.take point.toNat) ++ "." ++ String.ofList (digits.drop point.toNat)
  else "0." ++ zeros (-point).toNat ++ String.ofList digits

/-- A positive decimal with one digit before the point and a signed exponent. -/
def exponential (d : Decimal) : String :=
  let digits := Nat.toDigits 10 d.digits
  let e : Int := digits.length + d.exp - 1
  let tail := digits.drop 1
  String.ofList (digits.take 1) ++ (if tail.isEmpty then "" else "." ++ String.ofList tail)
    ++ (if e < 0 then "e-" else "e+") ++ toString e.natAbs

/-- The text that never uses an exponent and writes whole numbers without a point. -/
def positional : Binary64 → String
  | .nan => "NaN"
  | .infinite s => sign s ++ "inf"
  | .finite s m e =>
    sign s ++ (if m = 0 then "0" else expanded (Decimal.shortest m e) "")

/-- The text that writes whole numbers with `.0` and uses an exponent below `1e-5` and from `1e16`
on. -/
def scientific : Binary64 → String
  | .nan => "NaN"
  | .infinite s => sign s ++ "inf"
  | .finite s m e =>
    if m = 0 then sign s ++ "0.0"
    else
      let d := Decimal.shortest m e
      let point : Int := Decimal.width d.digits + d.exp
      sign s ++ (if -5 < point ∧ point ≤ 16 then expanded d ".0" else exponential d)

end Binary64

end PaneRelay.Text
