/-! # Sums in a script

A script reckons with whole numbers of 64 bits, whose names are those of its variables.

* `Vars`: the variables.
* `Symbol`: the parts of an expression, and `symbols?` how it is cut into them.
* `evaluate?`: the value of an expression, and the variables after it. -/

namespace PaneRelay.Shell

/-- **Variables:** the first entry with a name counts. -/
abbrev Vars := List (List Char × List Char)

/-- The variables after one of them is set. -/
def Vars.set (v : Vars) (name value : List Char) : Vars :=
  (name, value) :: v.filter fun e => e.1 ≠ name

/-- Whether a character may stand in a name. -/
def isNameChar (c : Char) : Bool := c.isAlphanum || c = '_'

/-- Whether a character may start a name. -/
def isNameStart (c : Char) : Bool := c.isAlpha || c = '_'

namespace Sum

/-- A whole number in 64 bits. -/
def wrap (n : Int) : Int := n.bmod 0x10000000000000000

/-- **A part of an expression.** -/
inductive Symbol where
  /-- A number. -/
  | number (n : Int)
  /-- A variable. -/
  | name (s : List Char)
  /-- An operator or a bracket. -/
  | sign (s : String)
deriving DecidableEq

/-- Signs; none stands after one of its own beginnings. -/
def signs : List String :=
  ["<<=", ">>=", "<<", ">>", "<=", ">=", "==", "!=", "&&", "||", "+=", "-=", "*=", "/=", "%=", "&=",
    "|=", "^=", "+", "-", "*", "/", "%", "(", ")", "<", ">", "&", "|", "^", "!", "~", "?", ":", "=",
    ","]

/-- The value of a digit in some base up to sixteen. -/
def digitValue (c : Char) : Nat :=
  if c.isDigit then c.toNat - 48 else (c.toLower.toNat - 97) + 10

/-- The number that some digits stand for. -/
def ofDigits (base : Nat) (ds : List Char) : Nat := ds.foldl (fun n d => base * n + digitValue d) 0

/-- A number as it is written: in base eight after a zero, in base sixteen after `0x`. -/
def number? (s : List Char) : Option Int :=
  match s with
  | '0' :: 'x' :: ds =>
    if !ds.isEmpty && ds.all fun c => c.isDigit || ('a' ≤ c.toLower && c.toLower ≤ 'f')
    then some (ofDigits 16 ds) else none
  | '0' :: ds => if ds.all fun c => '0' ≤ c && c ≤ '7' then some (ofDigits 8 ds) else none
  | ds => if !ds.isEmpty && ds.all Char.isDigit then some (ofDigits 10 ds) else none

/-- **Cuts an expression into its parts.** The number bounds how many there are. -/
def symbols? : Nat → List Char → Option (List Symbol)
  | _, [] => some []
  | 0, _ => none
  | n + 1, c :: cs =>
    if c = ' ' || c = '\t' || c = '\n' then symbols? n cs
    else if c.isDigit then do
      let x ← number? ((c :: cs).takeWhile isNameChar)
      return .number x :: (← symbols? n (cs.dropWhile isNameChar))
    else if isNameStart c then do
      return .name ((c :: cs).takeWhile isNameChar) :: (← symbols? n (cs.dropWhile isNameChar))
    else do
      let s ← signs.find? fun s => s.toList.isPrefixOf (c :: cs)
      return .sign s :: (← symbols? n ((c :: cs).drop s.length))

/-- Operators between two numbers by strength, the weakest first. -/
def levels : List (List String) :=
  [["||"], ["&&"], ["|"], ["^"], ["&"], ["==", "!="], ["<=", ">=", "<", ">"], ["<<", ">>"],
    ["+", "-"],
    ["*", "/", "%"]]

/-- A truth value as a number. -/
def truth (b : Bool) : Int := if b then 1 else 0

/-- The bits of a number. -/
def bitsOf (n : Int) : UInt64 := UInt64.ofNat (n % 0x10000000000000000).toNat

/-- Two numbers joined bit by bit. -/
def bits (f : UInt64 → UInt64 → UInt64) (a b : Int) : Int := wrap (f (bitsOf a) (bitsOf b)).toNat

/-- **The value of an operator.** Nothing is divided by zero. -/
def reckon? (op : String) (a b : Int) : Option Int :=
  if op = "+" then some (wrap (a + b))
  else if op = "-" then some (wrap (a - b))
  else if op = "*" then some (wrap (a * b))
  else if op = "/" then if b = 0 then none else some (wrap (a.tdiv b))
  else if op = "%" then if b = 0 then none else some (wrap (a.tmod b))
  else if op = "==" then some (truth (a = b))
  else if op = "!=" then some (truth (a ≠ b))
  else if op = "<=" then some (truth (a ≤ b))
  else if op = ">=" then some (truth (a ≥ b))
  else if op = "<" then some (truth (a < b))
  else if op = ">" then some (truth (a > b))
  else if op = "&&" then some (truth (a ≠ 0 && b ≠ 0))
  else if op = "||" then some (truth (a ≠ 0 || b ≠ 0))
  else if op = "&" then some (bits (· &&& ·) a b)
  else if op = "|" then some (bits (· ||| ·) a b)
  else if op = "^" then some (bits (· ^^^ ·) a b)
  else if op = "<<" then some (wrap (a * Nat.pow 2 (b % 64).toNat))
  else if op = ">>" then some (wrap (a / Nat.pow 2 (b % 64).toNat))
  else none

/-- The number in a variable; nothing in it is zero. -/
def valueOf? (v : Vars) (name : List Char) : Option Int :=
  match v.lookup name with
  | none => some 0
  | some s =>
    match s.filter fun c => c ≠ ' ' with
    | [] => some 0
    | '-' :: ds => (number? ds).map fun n => -n
    | '+' :: ds => number? ds
    | ds => number? ds

/-- **What has been reckoned:** a number, what follows it, and the variables. -/
abbrev Reckoned := Option (Int × List Symbol × Vars)

mutual

/-- A number, a variable, a bracket, or one of these after a sign. -/
def operand : Nat → List Symbol → Vars → Reckoned
  | 0, _, _ => none
  | n + 1, ts, v =>
    match ts with
    | .number x :: ts => some (x, ts, v)
    | .name s :: ts => (valueOf? v s).map fun x => (x, ts, v)
    | .sign s :: ts =>
      if s = "(" then
        match whole n ts v with
        | some (x, .sign t :: ts, v) => if t = ")" then some (x, ts, v) else none
        | _ => none
      else if s = "-" then (operand n ts v).map fun (x, r) => (wrap (-x), r)
      else if s = "+" then operand n ts v
      else if s = "!" then (operand n ts v).map fun (x, r) => (truth (x = 0), r)
      else if s = "~" then (operand n ts v).map fun (x, r) => (-x - 1, r)
      else none
    | [] => none

/-- Operators of one strength, from left to right, after a number. -/
def chain : Nat → List String → List (List String) → Int → List Symbol → Vars → Reckoned
  | 0, _, _, _, _, _ => none
  | n + 1, ops, stronger, a, ts, v =>
    match ts with
    | .sign s :: rest =>
      if ops.contains s then do
        let (b, ts, v) ← joined n stronger rest v
        let x ← reckon? s a b
        chain n ops stronger x ts v
      else some (a, ts, v)
    | _ => some (a, ts, v)

/-- An expression whose operators are at least of some strength. -/
def joined : Nat → List (List String) → List Symbol → Vars → Reckoned
  | 0, _, _, _ => none
  | n + 1, levels, ts, v =>
    match levels with
    | [] => operand n ts v
    | ops :: stronger => do
      let (a, ts, v) ← joined n stronger ts v
      chain n ops stronger a ts v

/-- A whole expression: an assignment, a choice, or neither. -/
def whole : Nat → List Symbol → Vars → Reckoned
  | 0, _, _ => none
  | n + 1, ts, v =>
    match ts with
    | .name s :: .sign op :: rest =>
      if op = "=" then do
        let (x, ts, v) ← whole n rest v
        return (x, ts, v.set s (toString x).toList)
      else if op.endsWith "=" && !(["==", "!=", "<=", ">="].contains op) then do
        let (b, ts, v) ← whole n rest v
        let x ← reckon? ((op.dropEnd 1).toString) (← valueOf? v s) b
        return (x, ts, v.set s (toString x).toList)
      else choice n ts v
    | ts => choice n ts v

/-- A choice between two expressions, or an expression without one. -/
def choice : Nat → List Symbol → Vars → Reckoned
  | 0, _, _ => none
  | n + 1, ts, v => do
    let (x, rest, v) ← joined n levels ts v
    match rest with
    | .sign s :: rest =>
      if s = "?" then
        let (a, rest, v) ← whole n rest v
        match rest with
        | .sign t :: rest =>
          if t = ":" then
            let (b, rest, v) ← whole n rest v
            return (if x = 0 then b else a, rest, v)
          else none
        | _ => none
      else return (x, .sign s :: rest, v)
    | rest => return (x, rest, v)

end

/-- **The value of an expression**, and the variables after it. -/
def evaluate? (v : Vars) (s : List Char) : Option (Int × Vars) := do
  let ts ← symbols? (s.length + 1) s
  if ts.isEmpty then return (0, v)
  match whole (32 * (ts.length + 1)) ts v with
  | some (x, [], v) => return (x, v)
  | _ => none

end Sum

end PaneRelay.Shell
