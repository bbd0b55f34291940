import PaneRelay.Terminal.Failure

/-! # Terminal errors

What can go wrong with a terminal. Every failure that only says that the other side is gone becomes
`closed`, so that no caller has to know the system's numbers.

* `TerminalError`: the causes, with their wording.
* `TerminalError.ofFailure`: which failures mean that the terminal is closed.
* `validateSize`: the sizes a terminal may have. -/

namespace PaneRelay.Terminal

/-- **Causes of failure of a terminal.** -/
inductive TerminalError where
  /-- The terminal was closed, its program ended, or the pipe broke. -/
  | closed
  /-- A dimension outside `1..=32767`. -/
  | invalidSize (cols rows : Nat)
  /-- The terminal or its program could not be started. -/
  | spawn (text : String)
  /-- A failure that does not mean closure. -/
  | failed (kind : IoKind) (text : String)
  /-- The kind of terminal cannot do this. -/
  | unsupported (text : String)
deriving DecidableEq, Repr

namespace TerminalError

/-- The wording of an error. -/
def message : TerminalError → String
  | .closed => "terminal closed"
  | .invalidSize c r => s!"invalid terminal size {c}x{r} (each dimension must be 1..=32767)"
  | .spawn t => s!"failed to spawn terminal: {t}"
  | .failed k t => s!"terminal I/O error ({k.name}): {t}"
  | .unsupported t => s!"unsupported by this backend: {t}"

/-- Whether an error says that the terminal is gone. -/
def isClosed : TerminalError → Bool
  | .closed => true
  | _ => false

/-- Kinds of failure that mean that the other side is gone. -/
def closedKinds : List IoKind :=
  [.brokenPipe, .unexpectedEof, .connectionReset, .connectionAborted, .notConnected]

/-- Numbers of the system that mean it too: input/output error, bad descriptor, broken pipe. -/
def closedCodes : List Nat := [5, 9, 32]

/-- A failed system call as a terminal error. -/
def ofFailure (e : IoError) : TerminalError :=
  if closedKinds.contains e.kind || e.code.any closedCodes.contains then .closed
  else .failed e.kind e.text

end TerminalError

/-- The largest dimension of a terminal. -/
def maxDimension : Nat := 32767

/-- Accepts a size whose dimensions both lie in `1..=32767`. -/
def validateSize (cols rows : Nat) : Except TerminalError Unit :=
  if (1 ≤ cols ∧ cols ≤ maxDimension) ∧ (1 ≤ rows ∧ rows ≤ maxDimension) then .ok ()
  else .error (.invalidSize cols rows)

end PaneRelay.Terminal
