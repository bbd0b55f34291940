import PaneRelay.Child.Behaviour

/-! # A running program

Seen from outside, a program has an input that one can add to, two outputs that one can take from,
and perhaps a screen. Between two operations from outside it does whatever it can do.

* `Ports`: what lies between a program and the outside.
* `Behaviour.run`: what a program does by itself, up to a point at which it has to wait.
* `Child`: a program with its ports, and what can be done to it. -/

namespace PaneRelay

namespace Child

/-- **What lies between a program and the outside.** -/
structure Ports where
  /-- What was sent and not read yet; an end of input may stand in between. -/
  input : List (Option UInt8) := []
  /-- Whether nothing more will be sent. -/
  inputEnded : Bool := false
  /-- What was written and not taken yet. -/
  output : ByteArray := ByteArray.empty
  /-- What was complained and not taken yet. -/
  complaint : ByteArray := ByteArray.empty
  /-- The streams that the program gave up. -/
  givenUp : List Stream := []
  /-- The size of the screen, in columns and rows, if there is one. -/
  screen : Option (Nat × Nat) := none
  /-- How long the program has slept. -/
  slept : Nat := 0

namespace Ports

/-- What was written to a stream and not taken yet. -/
def pending (p : Ports) : Stream → ByteArray
  | .input => ByteArray.empty
  | .output => p.output
  | .complaint => p.complaint

/-- The program writes to a stream. -/
def write (p : Ports) (s : Stream) (data : ByteArray) : Ports :=
  match s with
  | .input => p
  | .output => { p with output := p.output ++ data }
  | .complaint => { p with complaint := p.complaint ++ data }

/-- Up to `max` bytes are taken from a stream. -/
def take (p : Ports) (s : Stream) (max : Nat) : ByteArray × Ports :=
  match s with
  | .input => (ByteArray.empty, p)
  | .output => (p.output.extract 0 max, { p with output := p.output.extract max p.output.size })
  | .complaint =>
    (p.complaint.extract 0 max, { p with complaint := p.complaint.extract max p.complaint.size })

end Ports

/-- **What a program does by itself** until it ends, waits for input, or sleeps for longer than it
is waited for. -/
def Behaviour.run (waits : Ports → Nat → Bool) (b : Behaviour) (p : Ports) : Behaviour × Ports :=
  match b with
  | .ends status => (.ends status, p)
  | .writes s data next => (next ()).run waits (p.write s data)
  | .reads next =>
    match p with
    | { input := x :: rest, .. } => (next x).run waits { p with input := rest }
    | { input := [], inputEnded := true, .. } => (next none).run waits p
    | p => (.reads next, p)
  | .sleeps ms next =>
    if ms = 0 || waits p ms then (next ()).run waits { p with slept := p.slept + ms }
    else (.sleeps ms next, p)
  | .asks next => (next p.screen).run waits p
  | .closes s next => (next ()).run waits { p with givenUp := s :: p.givenUp }

/-- Whether a program has ended. -/
def Behaviour.hasEnded : Behaviour → Bool
  | .ends _ => true
  | _ => false

end Child

open Child in
/-- **A running program.** -/
structure Child where
  /-- What it does from now on. -/
  life : Behaviour
  /-- What lies between it and the outside. -/
  ports : Ports := {}
  /-- What it is known by. -/
  pid : Nat := 1

namespace Child

/-- Lets the program run; it is waited for while a test says so. -/
def proceed (c : Child) (waits : Ports → Nat → Bool) : Child :=
  let (life, ports) := c.life.run waits c.ports
  { c with life, ports }

/-- Lets the program run without waiting for it. -/
def settle (c : Child) : Child := c.proceed fun _ _ => false

/-- Lets the program run to its end, or until it waits for input. -/
def finish (c : Child) : Child := c.proceed fun _ _ => true

/-- Whether the program has ended. -/
def hasEnded (c : Child) : Bool := c.life.hasEnded

/-- Whether a stream is still held by the program. -/
def holds (c : Child) (s : Stream) : Bool := !c.hasEnded && !c.ports.givenUp.contains s

/-- Sends input, of which each item is a byte or an end. -/
def send (c : Child) (items : List (Option UInt8)) : Child :=
  { c with ports := { c.ports with input := c.ports.input ++ items } }.settle

/-- Ends the input. -/
def endInput (c : Child) : Child :=
  { c with ports := { c.ports with inputEnded := true } }.settle

/-- Changes the size of the screen. -/
def resize (c : Child) (cols rows : Nat) : Child :=
  { c with ports := { c.ports with screen := some (cols, rows) } }.settle

/-- Waits until a stream has something to take or is given up, for as long as that takes. -/
def await (c : Child) (s : Stream) : Child :=
  c.proceed fun p _ => (p.pending s).isEmpty && !p.givenUp.contains s

/-- Waits for the program's end for so many milliseconds. -/
def waitFor (c : Child) (ms : Nat) : Child :=
  let start := c.ports.slept
  c.proceed fun p more => p.slept + more ≤ start + ms

/-- Ends the program from outside. -/
def kill (c : Child) : Child := if c.hasEnded then c else { c with life := .ends 137 }

/-- Takes up to `max` bytes from a stream. -/
def take (c : Child) (s : Stream) (max : Nat) : ByteArray × Child :=
  let (data, ports) := c.ports.take s max
  (data, { c with ports })

end Child

end PaneRelay
