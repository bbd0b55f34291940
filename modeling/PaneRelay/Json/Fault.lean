import PaneRelay.Text.Binary64
import PaneRelay.Text.Quoted

/-! # What is wrong with a JSON text

A JSON text is refused with one cause, and with the place where it was noticed: a line and a number
of bytes on that line. While a text is read a place is known as the number of bytes not yet taken,
so that nothing has to be counted unless a fault is reported.

* `Cause`: the causes, with their wording.
* `Fault`: a cause at a place.
* `Fault.report`: the wording of a fault in a given text. -/

namespace PaneRelay.Json

open PaneRelay.Text

/-- **A JSON number as a value.** -/
inductive Number where
  /-- A whole number from 0 to 2 ^ 64 - 1. -/
  | whole (n : Nat)
  /-- The negative of a number from 1 to 2 ^ 63. -/
  | minus (n : Nat)
  /-- Any other number, and `-0`. -/
  | real (x : Binary64)
deriving DecidableEq, Repr

/-- What was found in place of the wanted value. -/
inductive Found where
  /-- The value `null`. -/
  | null
  /-- A truth value. -/
  | bool (b : Bool)
  /-- A number. -/
  | number (n : Number)
  /-- A string. -/
  | string (s : String)
  /-- An array. -/
  | sequence
  /-- An object. -/
  | map
deriving DecidableEq, Repr

/-- A found value in words. -/
def Found.describe : Found → String
  | .null => "null"
  | .bool b => "boolean `" ++ toString b ++ "`"
  | .number (.whole n) => "integer `" ++ toString n ++ "`"
  | .number (.minus n) => "integer `-" ++ toString n ++ "`"
  | .number (.real x) => "floating point `" ++ x.scientific ++ "`"
  | .string s => "string " ++ quoted s
  | .sequence => "sequence"
  | .map => "map"

/-- **Causes of refusal.** -/
inductive Cause where
  /-- The text ends inside an object. -/
  | eofObject
  /-- The text ends inside an array. -/
  | eofList
  /-- The text ends inside a string. -/
  | eofString
  /-- The text ends where a value has to come. -/
  | eofValue
  /-- A key is not followed by a colon. -/
  | expectedColon
  /-- An array element is followed by neither a comma nor the closing bracket. -/
  | expectedListEnd
  /-- An object member is followed by neither a comma nor the closing brace. -/
  | expectedObjectEnd
  /-- A word starts like `true`, `false` or `null` and is another. -/
  | expectedIdent
  /-- No value starts with the character found. -/
  | expectedValue
  /-- A backslash is followed by something that is no escape. -/
  | invalidEscape
  /-- A number breaks off or goes on where it may not. -/
  | invalidNumber
  /-- A number is too large for its kind of value. -/
  | numberOutOfRange
  /-- A control character stands in a string. -/
  | controlCharacter
  /-- An object key is not a string. -/
  | keyNotString
  /-- Half of a surrogate pair is escaped alone. -/
  | loneSurrogate
  /-- The first half of a surrogate pair is followed by no second escape. -/
  | brokenSurrogate
  /-- A comma stands before a closing bracket. -/
  | trailingComma
  /-- Something follows a complete value. -/
  | trailingCharacters
  /-- An object lacks a required key. -/
  | missingField (key : String)
  /-- An object has a known key twice. -/
  | duplicateField (key : String)
  /-- An array is too short. -/
  | invalidLength (length : Nat) (expected : String)
  /-- A value of another kind was wanted. -/
  | invalidType (found : Found) (expected : String)
  /-- A value of the right kind does not fit. -/
  | invalidValue (found : Found) (expected : String)
  /-- A tag is none of those known. -/
  | unknownVariant (tag : String) (expected : String)
deriving DecidableEq, Repr

/-- The wording of a cause. -/
def Cause.message : Cause → String
  | .eofObject => "EOF while parsing an object"
  | .eofList => "EOF while parsing a list"
  | .eofString => "EOF while parsing a string"
  | .eofValue => "EOF while parsing a value"
  | .expectedColon => "expected `:`"
  | .expectedListEnd => "expected `,` or `]`"
  | .expectedObjectEnd => "expected `,` or `\x7d`"
  | .expectedIdent => "expected ident"
  | .expectedValue => "expected value"
  | .invalidEscape => "invalid escape"
  | .invalidNumber => "invalid number"
  | .numberOutOfRange => "number out of range"
  | .controlCharacter => "control character (\\u0000-\\u001F) found while parsing a string"
  | .keyNotString => "key must be a string"
  | .loneSurrogate => "lone leading surrogate in hex escape"
  | .brokenSurrogate => "unexpected end of hex escape"
  | .trailingComma => "trailing comma"
  | .trailingCharacters => "trailing characters"
  | .missingField k => "missing field `" ++ k ++ "`"
  | .duplicateField k => "duplicate field `" ++ k ++ "`"
  | .invalidLength n e => "invalid length " ++ toString n ++ ", expected " ++ e
  | .invalidType f e => "invalid type: " ++ f.describe ++ ", expected " ++ e
  | .invalidValue f e => "invalid value: " ++ f.describe ++ ", expected " ++ e
  | .unknownVariant t e => "unknown variant `" ++ t ++ "`, expected `" ++ e ++ "`"

/-- How many bytes a text takes in UTF-8. -/
def byteCount (s : List Char) : Nat := s.foldr (fun c n => c.utf8Size + n) 0

/-- **A fault:** a cause, and the number of bytes that were not yet taken when it was noticed. A
fault in a value already taken apart has no place. -/
structure Fault where
  /-- What is wrong. -/
  cause : Cause
  /-- Bytes not yet taken. -/
  left : Option Nat
deriving DecidableEq, Repr

namespace Fault

/-- A fault before the rest `s`. -/
def before (c : Cause) (s : List Char) : Fault := ⟨c, some (byteCount s)⟩

/-- A fault at the first byte of the rest `s`, which counts as taken. -/
def atFirst (c : Cause) (s : List Char) : Fault := ⟨c, some (byteCount s - 1)⟩

/-- A fault whose place is not yet known. -/
def nowhere (c : Cause) : Fault := ⟨c, none⟩

end Fault

/-! ## Places in a text -/

/-- A line, counted from 1, and a number of bytes on it. -/
structure Place where
  /-- The line. -/
  line : Nat
  /-- Bytes on it. -/
  column : Nat
deriving DecidableEq, Repr

/-- The place after one more byte. -/
def Place.next (p : Place) (b : UInt8) : Place :=
  if b = 10 then ⟨p.line + 1, 0⟩ else ⟨p.line, p.column + 1⟩

/-- The place after some bytes. -/
def Place.after (bytes : List UInt8) : Place := bytes.foldl Place.next ⟨1, 0⟩

/-- The wording of a fault in a text. -/
def Fault.report (text : String) (f : Fault) : String :=
  match f.left with
  | none => f.cause.message
  | some left =>
    let bytes := text.toUTF8.data.toList
    let p := Place.after (bytes.take (bytes.length - left))
    f.cause.message ++ s!" at line {p.line} column {p.column}"

end PaneRelay.Json
