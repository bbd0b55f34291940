import PaneRelay.Terminal.LineEnding

/-! # The line discipline of a screen

Between a program and its screen stands a discipline. What is typed is shown and held back until a
line is complete, so that it can be corrected; what is written gets its line ends completed.

* `displayed`: what the screen shows of something written.
* `Discipline`: the line that is not complete.
* `Discipline.type`: what comes of typing a byte. -/

namespace PaneRelay.Terminal

open LineEnding (cr lf)

/-- **What the screen shows** of something written: a line feed starts at the left margin. -/
def displayed (data : ByteArray) : ByteArray :=
  if data.data.contains lf then
    (data.data.toList.flatMap fun b => if b = lf then [cr, lf] else [b]).toByteArray
  else data

/-- **A line that is not complete**, last byte first. -/
structure Discipline where
  /-- The bytes. -/
  line : List UInt8 := []
deriving DecidableEq, Repr

/-- **What comes of typing.** -/
structure Typed where
  /-- What the screen shows. -/
  echo : List UInt8 := []
  /-- What the program gets; an end of input stands for none. -/
  sent : List (Option UInt8) := []
  /-- Whether the program is interrupted. -/
  interrupts : Bool := false
  /-- The line after it. -/
  discipline : Discipline

namespace Discipline

/-- Whether a byte is shown by a caret and a letter. -/
def isHidden (b : UInt8) : Bool := (b < 32 && b ≠ 9) || b = 127

/-- How a byte is shown. -/
def echoOf (b : UInt8) : List UInt8 := if isHidden b then [94, b ^^^ 64] else [b]

/-- How a byte is wiped off the screen. -/
def wipe (b : UInt8) : List UInt8 :=
  let one : List UInt8 := [8, 32, 8]
  if isHidden b then one ++ one else one

/-- Takes back so many bytes at the end of the line. -/
def takeBack (d : Discipline) (n : Nat) : Typed :=
  { echo := (d.line.take n).flatMap wipe, discipline := ⟨d.line.drop n⟩ }

/-- Whether a byte is part of a word. -/
def isWordByte (b : UInt8) : Bool :=
  (48 ≤ b && b ≤ 57) || (65 ≤ b && b ≤ 90) || (97 ≤ b && b ≤ 122) || b = 95

/-- How many bytes the last word of the line has, with what follows it. -/
def lastWord (d : Discipline) : Nat :=
  let after := d.line.takeWhile fun b => !isWordByte b
  after.length + ((d.line.drop after.length).takeWhile isWordByte).length

/-- **Typing a byte.** A carriage return is a line feed, and control bytes correct the line, end it
or interrupt the program. -/
def type (d : Discipline) (b : UInt8) : Typed :=
  if b = cr || b = lf then
    { echo := [cr, lf], sent := ((lf :: d.line).reverse).map some, discipline := {} }
  else if b = 4 then
    { sent := if d.line.isEmpty then [none] else d.line.reverse.map some, discipline := {} }
  else if b = 3 || b = 28 then { echo := echoOf b, interrupts := true, discipline := {} }
  else if b = 127 then d.takeBack 1
  else if b = 21 then d.takeBack d.line.length
  else if b = 23 then d.takeBack d.lastWord
  else if b = 17 || b = 19 then { discipline := d }
  else { echo := echoOf b, discipline := ⟨b :: d.line⟩ }

/-- Typing several bytes. An interrupt takes what was typed before it off the screen and away from
the program. -/
def typeAll (d : Discipline) : List UInt8 → Typed
  | [] => { discipline := d }
  | b :: bs =>
    let t := d.type b
    let u := t.discipline.typeAll bs
    { echo := if u.interrupts then u.echo else t.echo ++ u.echo
      sent := if u.interrupts then u.sent else t.sent ++ u.sent
      interrupts := t.interrupts || u.interrupts
      discipline := u.discipline }

end Discipline

end PaneRelay.Terminal
