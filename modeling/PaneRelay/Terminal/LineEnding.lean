/-! # Line endings on a pipe

A program that reads a pipe expects a line feed at the end of a line, while a terminal's return key
sends a carriage return. `normalize` adds the missing line feeds.

* `complete`: the rule, on lists of bytes.
* `hasLone`: whether the rule changes anything.
* `normalize`: the rule on byte strings; text without a lone carriage return is passed on as
  it is. -/

namespace PaneRelay.Terminal.LineEnding

/-- The carriage return. -/
def cr : UInt8 := 13

/-- The line feed. -/
def lf : UInt8 := 10

/-- Whether the rest of a text starts with a line feed. -/
def startsWithLf (l : List UInt8) : Bool := l.head? == some lf

/-- Whether some carriage return is not followed by a line feed. -/
def hasLone : List UInt8 → Bool
  | [] => false
  | b :: l => (b == cr && !startsWithLf l) || hasLone l

/-- **Completed line ends:** a line feed is inserted after each lone carriage return. -/
def complete : List UInt8 → List UInt8
  | [] => []
  | b :: l => if b == cr && !startsWithLf l then b :: lf :: complete l else b :: complete l

/-- A text as it goes to the program, and whether it had to be changed. -/
def normalize (data : ByteArray) : ByteArray × Bool :=
  let bytes := data.data.toList
  if hasLone bytes then ((complete bytes).toByteArray, true) else (data, false)

/-- Without a lone carriage return there is nothing to complete. -/
theorem complete_of_not_hasLone {l : List UInt8} (h : hasLone l = false) : complete l = l := by
  induction l with
  | nil => rfl
  | cons b l ih =>
    simp only [hasLone, Bool.or_eq_false_iff] at h
    simp [complete, h.1, ih h.2]

end PaneRelay.Terminal.LineEnding
