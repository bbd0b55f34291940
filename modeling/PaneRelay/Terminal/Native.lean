import PaneRelay.Terminal.Discipline
import PaneRelay.Terminal.Pipes

/-! # A program on a screen

The program has one screen for all its streams, with a size that can change. Whatever is typed or
written goes through the line discipline.

* `Native`: the program, its screen and the handles.
* `read`, `write`, `resize`, `close`: the operations. -/

namespace PaneRelay.Terminal

open PaneRelay.Child (Stream Behaviour)

/-- **A program on a screen.** -/
structure Native where
  /-- The program. -/
  child : Child
  /-- The line that is being typed. -/
  discipline : Discipline := {}
  /-- What the screen shows and nobody has read yet. -/
  screen : ByteArray := ByteArray.empty
  /-- The handle that sets the size. -/
  master : Handle Unit := .ofValue ()
  /-- The handle that reads. -/
  reader : Handle Unit := .ofValue ()
  /-- The handle that writes. -/
  writer : Handle Unit := .ofValue ()
  /-- How long the program has to end when it is closed. -/
  closeGrace : Nat
  /-- How long its end is waited for after it was killed. -/
  closeConfirm : Nat
  /-- What the system says when the program is killed, if that fails. -/
  killFailure : Option IoError := none
  /-- The result of closing, once that was done. -/
  closed : Option (Except TerminalError Unit) := none

namespace Native

/-- Shows what the program has written. -/
def refresh (n : Native) : Native :=
  let (data, child) := n.child.take .output n.child.ports.output.size
  { n with child, screen := n.screen ++ displayed data }

/-- All of a program's output goes to its screen, which it cannot give up. -/
def onScreen (b : Behaviour) : Behaviour :=
  (b.rerouted fun s => if s = .complaint then some .output else some s).kept

/-- A program just started. -/
def ofBehaviour (c : TerminalConfig) (b : Behaviour) : Native :=
  { child := { life := onScreen b, ports := { screen := some (c.cols, c.rows) } : Child }.settle
    closeGrace := c.closeGrace
    closeConfirm := c.closeConfirm : Native }.refresh

/-- Waits until there is something to read, or nothing will come any more. -/
def await (n : Native) : Native :=
  if n.screen.isEmpty then { n with child := n.child.await .output }.refresh else n

/-- **Reads up to `max` bytes of the screen.** -/
def read (n : Native) (max : Nat) : Reading × Native :=
  match n.reader.snapshot with
  | .error e => (.failed e, n)
  | .ok () =>
    let n := n.await
    if !n.screen.isEmpty then
      (.data (n.screen.extract 0 max), { n with screen := n.screen.extract max n.screen.size })
    else if n.child.hasEnded then (.failed .closed, n)
    else (.waits, n)

/-- **Types bytes.** -/
def write (n : Native) (data : ByteArray) : Except TerminalError Nat × Native :=
  match n.writer.snapshot with
  | .error e => (.error e, n)
  | .ok () =>
    if n.child.hasEnded then (.ok data.size, n)
    else
      let t := n.discipline.typeAll data.data.toList
      let n := { n with screen := n.screen ++ t.echo.toByteArray, discipline := t.discipline }
      let child := if t.interrupts then n.child.kill else n.child
      (.ok data.size, { n with child := child.send t.sent }.refresh)

/-- Changes the size of the screen. -/
def resize (n : Native) (cols rows : Nat) : Except TerminalError Unit × Native :=
  match validateSize cols rows with
  | .error e => (.error e, n)
  | .ok () =>
    match n.master.snapshot with
    | .error e => (.error e, n)
    | .ok () => (.ok (), { n with child := n.child.resize cols rows }.refresh)

/-- The result of killing the program, given what the system says. -/
def killResult (failure : Option IoError) : Except TerminalError Unit :=
  match failure.map TerminalError.ofFailure with
  | none => .ok ()
  | some .closed => .ok ()
  | some e => .error e

/-- **What closing does:** the screen goes, and with it a program that does not hold out. As with pipes,
one that the system refuses to kill is taken to be gone, and asking whether it has ended does not
fail. -/
def teardown (n : Native) : Except TerminalError Unit × Native :=
  let (_, writer) := n.writer.invalidate
  let (_, reader) := n.reader.invalidate
  let (_, master) := n.master.invalidate
  let child := n.child.waitFor n.closeGrace
  let (result, child) :=
    if child.hasEnded then (.ok (), child) else (killResult n.killFailure, child.kill)
  (result, { n with child, writer, reader, master })

/-- **Closes the screen.** Only the first call does something; every call returns its result. -/
def close (n : Native) : Except TerminalError Unit × Native :=
  match n.closed with
  | some result => (result, n)
  | none =>
    let (result, n) := n.teardown
    (result, { n with closed := some result })

/-- **Reads the screen to its end:** the chunks, and the result. There is none if the program waits
for input. -/
def readLoop (n : Native) : Option (List ByteArray × Except TerminalError Unit) × Native :=
  if n.reader.live then
    let n := { n with child := n.child.finish }.refresh
    if n.child.hasEnded then
      (some (drain (readsOf n.screen)), { n with screen := ByteArray.empty })
    else (none, n)
  else (some ([], .ok ()), n)

/-- **Closes the screen while a read loop is at work**, which gets what the screen shows already. -/
def closeReading (n : Native) : List ByteArray × Native :=
  if n.reader.live then
    ((drain (readsOf n.screen)).1, { n with screen := ByteArray.empty }.close.2)
  else ([], n.close.2)

end Native

end PaneRelay.Terminal
