import PaneRelay.Text.Unprintable

/-! # Quoted text in messages

A message that shows a text puts it between double quotes, so that one can see where it ends and
what it holds.

* `quotedChar`: how one character is written.
* `quoted`: a text between quotes. -/

namespace PaneRelay.Text

/-- The hexadecimal digits of a natural, in lower case. -/
def hexDigits (n : Nat) : List Char := Nat.toDigits 16 n

/-- **One character of a quoted text.** Quotes and backslashes get a backslash, the common control
characters a letter, and what does not print its number in braces. -/
def quotedChar (c : Char) : List Char :=
  if c = '\x00' then ['\\', '0']
  else if c = '\t' then ['\\', 't']
  else if c = '\r' then ['\\', 'r']
  else if c = '\n' then ['\\', 'n']
  else if c = '"' then ['\\', '"']
  else if c = '\\' then ['\\', '\\']
  else if isUnprintable c then ['\\', 'u', '\x7b'] ++ hexDigits c.toNat ++ ['\x7d']
  else [c]

/-- A text between double quotes. -/
def quoted (s : String) : String := String.ofList ('"' :: s.toList.flatMap quotedChar ++ ['"'])

end PaneRelay.Text
