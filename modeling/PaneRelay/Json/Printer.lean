import PaneRelay.Json.Shape

/-! # Compact JSON

The text of a value without blanks. A string is written as it is, except for quotes, backslashes and
control characters.

* `escapeChar`, `quote`: a string as JSON.
* `Shape.print`: a value of a shape, its fields as members in order. -/

namespace PaneRelay.Json

/-- A hexadecimal digit, in lower case. -/
def hexDigit (n : Nat) : Char := if n < 10 then Char.ofNat (48 + n) else Char.ofNat (87 + n)

/-- **One character of a JSON string.** -/
def escapeChar (c : Char) : List Char :=
  if c = '"' then ['\\', '"']
  else if c = '\\' then ['\\', '\\']
  else if c = '\x08' then ['\\', 'b']
  else if c = '\t' then ['\\', 't']
  else if c = '\n' then ['\\', 'n']
  else if c = '\x0c' then ['\\', 'f']
  else if c = '\r' then ['\\', 'r']
  else if c < ' ' then ['\\', 'u', '0', '0', hexDigit (c.toNat / 16), hexDigit (c.toNat % 16)]
  else [c]

/-- A string as JSON, as a list of characters. -/
def quoteChars (s : List Char) : List Char := '"' :: (s.flatMap escapeChar ++ ['"'])

/-- A string as JSON. -/
def quote (s : String) : String := String.ofList (quoteChars s.toList)

/-- Texts with commas between them. -/
def commaSep : List (List Char) → List Char
  | [] => []
  | [t] => t
  | t :: ts => t ++ ',' :: commaSep ts

mutual

/-- The text of a value; fields are named by the shape. -/
def printValue : Shape → Value → List Char
  | _, .word n => Nat.toDigits 10 n
  | _, .text s => quoteChars s.toList
  | _, .texts l => '[' :: (commaSep (l.map fun s => quoteChars s.toList) ++ [']'])
  | .record _ fields, .record vs => '\x7b' :: (commaSep (printFields fields vs) ++ ['\x7d'])
  | _, .record _ => ['\x7b', '\x7d']

/-- The members of a record. -/
def printFields : List (String × Shape × Option Value) → List Value → List (List Char)
  | (key, shape, _) :: fields, v :: vs =>
    (quoteChars key.toList ++ ':' :: printValue shape v) :: printFields fields vs
  | _, _ => []

end

/-- **The compact text of a value** of a shape. -/
def Shape.print (shape : Shape) (v : Value) : String := String.ofList (printValue shape v)

end PaneRelay.Json
