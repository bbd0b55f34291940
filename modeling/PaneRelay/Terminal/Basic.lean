import PaneRelay.Terminal.Launch
import PaneRelay.Terminal.Native

/-! # Terminals

A terminal is a program on a screen of its own or on pipes. Which of the two it is depends on what
is wanted, and on whether a screen can be had.

* `Launcher`: how programs are started.
* `Terminal.start`: starts a program.
* `Terminal.read`, `write`, `resize`, `close`, `readLoop`: the operations of either kind. -/

namespace PaneRelay

namespace Terminal

open PaneRelay.Child (Behaviour)

/-- **How programs are started**, on pipes and on a screen. -/
structure Launcher where
  /-- A program on pipes, or what is said when it cannot be started. -/
  onPipes : TerminalConfig → Except String Behaviour
  /-- A program on a screen, or what is said when it cannot be started. -/
  onScreen : TerminalConfig → Except String Behaviour

/-- Programs in some surroundings. -/
def Launcher.ofSurroundings (around : Surroundings) : Launcher where
  onPipes c := (launch around c).mapError IoError.text
  onScreen c := launchOnScreen around c

/-- Starts a program on pipes. The size is looked at first, although pipes have none. -/
def Pipes.start (l : Launcher) (c : TerminalConfig) : Except TerminalError Pipes := do
  validateSize c.cols c.rows
  match l.onPipes c with
  | .ok b => return Pipes.ofBehaviour c b
  | .error text => throw (.spawn text)

/-- Starts a program on a screen. -/
def Native.start (l : Launcher) (c : TerminalConfig) : Except TerminalError Native := do
  validateSize c.cols c.rows
  match l.onScreen c with
  | .ok b => return Native.ofBehaviour c b
  | .error text => throw (.spawn text)

end Terminal

open Terminal

/-- **A terminal.** -/
inductive Terminal where
  /-- A program on a screen. -/
  | native (n : Native)
  /-- A program on pipes. -/
  | pipes (p : Pipes)

namespace Terminal

/-- **Starts a program.** If a screen is only preferred, pipes are tried when there is none; but a
bad size would be no better there. -/
def start (l : Launcher) (c : TerminalConfig) : Except TerminalError Terminal :=
  match c.preference with
  | .native => (Native.start l c).map .native
  | .pipes => (Pipes.start l c).map .pipes
  | .auto =>
    match Native.start l c with
    | .ok n => .ok (.native n)
    | .error (.invalidSize cols rows) => .error (.invalidSize cols rows)
    | .error _ => (Pipes.start l c).map .pipes

/-- Whether the program has a screen. -/
def hasScreen : Terminal → Bool
  | .native _ => true
  | .pipes _ => false

/-- The program. -/
def child : Terminal → Child
  | .native n => n.child
  | .pipes p => p.child

/-- What the program is known by. -/
def pid (t : Terminal) : Option Nat := some t.child.pid

/-- Reads up to `max` bytes. -/
def read (t : Terminal) (max : Nat) : Reading × Terminal :=
  match t with
  | .native n => let (r, n) := n.read max; (r, .native n)
  | .pipes p => let (r, p) := p.read max; (r, .pipes p)

/-- Writes to the program. -/
def write (t : Terminal) (data : ByteArray) : Except TerminalError Nat × Terminal :=
  match t with
  | .native n => let (r, n) := n.write data; (r, .native n)
  | .pipes p => let (r, p) := p.write data; (r, .pipes p)

/-- Changes the size. -/
def resize (t : Terminal) (cols rows : Nat) : Except TerminalError Unit × Terminal :=
  match t with
  | .native n => let (r, n) := n.resize cols rows; (r, .native n)
  | .pipes p => (p.resize cols rows, .pipes p)

/-- Closes the terminal. Only the first call does something; every call returns its result. -/
def close (t : Terminal) : Except TerminalError Unit × Terminal :=
  match t with
  | .native n => let (r, n) := n.close; (r, .native n)
  | .pipes p => let (r, p) := p.close; (r, .pipes p)

/-- **Reads to the end:** the chunks that are handed on, and the result. There is none if the
program waits for input. -/
def readLoop (t : Terminal) : Option (List ByteArray × Except TerminalError Unit) × Terminal :=
  match t with
  | .native n => let (r, n) := n.readLoop; (r, .native n)
  | .pipes p =>
    let (r, p) := p.readLoop
    (r.map fun (outs, complaints, result) => (outs ++ complaints, result), .pipes p)

/-- Closes the terminal while a read loop is at work, and says what the loop still gets. -/
def closeReading (t : Terminal) : List ByteArray × Terminal :=
  match t with
  | .native n => let (chunks, n) := n.closeReading; (chunks, .native n)
  | .pipes p => let (chunks, p) := p.closeReading; (chunks, .pipes p)

end Terminal

end PaneRelay
