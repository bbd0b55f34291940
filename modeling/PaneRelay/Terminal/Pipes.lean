import PaneRelay.Child.Basic
import PaneRelay.Terminal.Config
import PaneRelay.Terminal.Drain
import PaneRelay.Terminal.Handle
import PaneRelay.Terminal.LineEnding

/-! # A program on pipes

The program has a pipe for each of its streams, and no screen. Each pipe is held by a guarded
handle; closing takes the handles away one after another.

* `Pipes`: the program and the handles.
* `Reading`: what comes of a read, which may have to wait for ever.
* `read`, `write`, `resize`, `close`: the operations. -/

namespace PaneRelay.Terminal

open PaneRelay.Child (Stream Behaviour)

/-- **What comes of a read.** -/
inductive Reading where
  /-- Some bytes. -/
  | data (d : ByteArray)
  /-- A failure. -/
  | failed (e : TerminalError)
  /-- Nothing, for ever: the program waits for input itself. -/
  | waits

/-- **A program on pipes.** -/
structure Pipes where
  /-- The program. -/
  child : Child
  /-- The pipe to its input. -/
  stdin : Handle Stream := .ofValue .input
  /-- The pipe from its output. -/
  stdout : Handle Stream := .ofValue .output
  /-- The pipe from its complaints. -/
  stderr : Handle Stream := .ofValue .complaint
  /-- How long the program has to end when it is closed. -/
  closeGrace : Nat
  /-- How long its end is waited for after it was killed. -/
  closeConfirm : Nat
  /-- What the system says when the program is killed, if that fails. -/
  killFailure : Option IoError := none
  /-- The result of closing, once that was done. -/
  closed : Option (Except TerminalError Unit) := none

namespace Pipes

/-- A program just started. -/
def ofBehaviour (c : TerminalConfig) (b : Behaviour) : Pipes :=
  { child := { life := b : Child }.settle
    closeGrace := c.closeGrace, closeConfirm := c.closeConfirm }

/-- A read of a pipe: what is there, or the end, or a wait for one of them. -/
def readPipe (p : Pipes) (s : Stream) (max : Nat) : Reading × Pipes :=
  let child := p.child.await s
  if !(child.ports.pending s).isEmpty then
    let (data, child) := child.take s max
    (.data data, { p with child })
  else if child.holds s then (.waits, { p with child })
  else (.failed .closed, { p with child })

/-- **Reads up to `max` bytes of output.** -/
def read (p : Pipes) (max : Nat) : Reading × Pipes :=
  match p.stdout.snapshot with
  | .error e => (.failed e, p)
  | .ok s => p.readPipe s max

/-- Reads up to `max` bytes of complaints. -/
def readStderr (p : Pipes) (max : Nat) : Reading × Pipes :=
  match p.stderr.snapshot with
  | .error e => (.failed e, p)
  | .ok s => p.readPipe s max

/-- **Writes to the program**, with the line ends that it expects. The count is the caller's. -/
def write (p : Pipes) (data : ByteArray) : Except TerminalError Nat × Pipes :=
  match p.stdin.snapshot with
  | .error e => (.error e, p)
  | .ok s =>
    let (bytes, _) := LineEnding.normalize data
    if bytes.isEmpty then (.ok data.size, p)
    else if p.child.holds s then
      (.ok data.size, { p with child := p.child.send (bytes.data.toList.map some) })
    else (.error (.ofFailure (.ofKind .brokenPipe)), p)

/-- Pipes have no size, but a size has to be a good one. -/
def resize (p : Pipes) (cols rows : Nat) : Except TerminalError Unit :=
  match validateSize cols rows with
  | .error e => .error e
  | .ok () => if p.stdin.live then .ok () else .error .closed

/-- The result of killing the program, given what the system says. -/
def killResult (failure : Option IoError) : Except TerminalError Unit :=
  match failure with
  | none => .ok ()
  | some e =>
    match TerminalError.ofFailure e with
    | .closed => .ok ()
    | .failed kind text => if kind = .invalidInput then .ok () else .error (.failed kind text)
    | e => .error e

/-- **What closing does:** the input ends, the program has some time to end by itself and is killed
if it does not, and the other pipes go. A program that the system refuses to kill is taken to be gone
too; only the result tells. Asking whether it has ended may fail as well, and would then end the wait;
here it does not fail. -/
def teardown (p : Pipes) : Except TerminalError Unit × Pipes :=
  let (_, stdin) := p.stdin.invalidate
  let child := p.child.endInput.waitFor p.closeGrace
  let (result, child) :=
    if child.hasEnded then (.ok (), child) else (killResult p.killFailure, child.kill)
  let (_, stdout) := p.stdout.invalidate
  let (_, stderr) := p.stderr.invalidate
  (result, { p with child, stdin, stdout, stderr })

/-- **Closes the pipes.** Only the first call does something; every call returns its result. -/
def close (p : Pipes) : Except TerminalError Unit × Pipes :=
  match p.closed with
  | some result => (result, p)
  | none =>
    let (result, p) := p.teardown
    (result, { p with closed := some result })

/-- **Reads both outputs to their ends:** the chunks of each, and the result. There is none if the
program waits for input. -/
def readLoop (p : Pipes) :
    Option (List ByteArray × List ByteArray × Except TerminalError Unit) × Pipes :=
  if p.stdout.live && p.stderr.live then
    let child := p.child.finish
    if child.holds .output || child.holds .complaint then (none, { p with child })
    else
      let (out, child) := child.take .output child.ports.output.size
      let (complaint, child) := child.take .complaint child.ports.complaint.size
      let (outs, first) := drain (readsOf out)
      let (complaints, second) := drain (readsOf complaint)
      (some (outs, complaints, Terminal.joined first second), { p with child })
  else (some ([], [], .ok ()), p)

/-- **Closes the pipes while a read loop is at work**, which gets what the program still writes in
its time. -/
def closeReading (p : Pipes) : List ByteArray × Pipes :=
  if p.stdin.live then
    let (_, stdin) := p.stdin.invalidate
    let child := (p.child.endInput.waitFor p.closeGrace)
    let (out, child) := child.take .output child.ports.output.size
    let (complaint, child) := child.take .complaint child.ports.complaint.size
    ((drain (readsOf out)).1 ++ (drain (readsOf complaint)).1, { p with child, stdin }.close.2)
  else ([], p.close.2)

end Pipes

end PaneRelay.Terminal
