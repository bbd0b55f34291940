/-! # What a program does

A program that runs in a pane is known by what it does to the streams that it shares with the pane.
Its behaviour is a tree: a node is the next thing it does, and a branch is what it does after it has
got an answer. Branches are looked at one at a time, so a program may well go on for ever.

* `Behaviour`: the tree.
* `andThen`: one program after another.
* `rerouted`, `kept`: a program whose streams are not its own.
* `capture`, `feeding`: a program whose output goes to another one. -/

namespace PaneRelay.Child

/-- **The streams of a program.** -/
inductive Stream where
  /-- What it reads. -/
  | input
  /-- What it writes. -/
  | output
  /-- What it complains on. -/
  | complaint
deriving DecidableEq, Repr

/-- **What a program does from now on.** -/
inductive Behaviour where
  /-- It ends with a status. -/
  | ends (status : Nat)
  /-- It writes to a stream. -/
  | writes (s : Stream) (data : ByteArray) (next : Unit → Behaviour)
  /-- It reads a byte; there is none at the end of its input. -/
  | reads (next : Option UInt8 → Behaviour)
  /-- It sleeps, for some milliseconds. -/
  | sleeps (ms : Nat) (next : Unit → Behaviour)
  /-- It asks for the size of its screen, in columns and rows; there may be no screen. -/
  | asks (next : Option (Nat × Nat) → Behaviour)
  /-- It gives up a stream. -/
  | closes (s : Stream) (next : Unit → Behaviour)

namespace Behaviour

instance : Inhabited Behaviour := ⟨.ends 0⟩

/-- Ends well. -/
def done : Behaviour := .ends 0

/-- Writes, if there is something to write, and goes on. -/
def put (s : Stream) (data : ByteArray) (next : Unit → Behaviour) : Behaviour :=
  if data.isEmpty then next () else .writes s data next

/-- **One program after another**, which learns the status of the first. -/
def andThen (b : Behaviour) (k : Nat → Behaviour) : Behaviour :=
  match b with
  | .ends status => k status
  | .writes s data next => .writes s data fun u => (next u).andThen k
  | .reads next => .reads fun x => (next x).andThen k
  | .sleeps ms next => .sleeps ms fun u => (next u).andThen k
  | .asks next => .asks fun x => (next x).andThen k
  | .closes s next => .closes s fun u => (next u).andThen k

/-- **A program whose streams are others' streams**; what it writes to none is gone, and what it
reads from none has ended. -/
def rerouted (target : Stream → Option Stream) : Behaviour → Behaviour
  | .ends status => .ends status
  | .writes s data next =>
    match target s with
    | some t => .writes t data fun u => (next u).rerouted target
    | none => (next ()).rerouted target
  | .reads next =>
    match target .input with
    | some .input => .reads fun x => (next x).rerouted target
    | _ => (next none).rerouted target
  | .sleeps ms next => .sleeps ms fun u => (next u).rerouted target
  | .asks next =>
    match target .input with
    | some .input => .asks fun x => (next x).rerouted target
    | _ => (next none).rerouted target
  | .closes s next => .closes s fun u => (next u).rerouted target

/-- A program whose streams someone else holds too, so that it cannot give them up. -/
def kept : Behaviour → Behaviour
  | .ends status => .ends status
  | .writes s data next => .writes s data fun u => (next u).kept
  | .reads next => .reads fun x => (next x).kept
  | .sleeps ms next => .sleeps ms fun u => (next u).kept
  | .asks next => .asks fun x => (next x).kept
  | .closes _ next => (next ()).kept

/-- **A program whose output is collected** for what comes after it. -/
def capture (b : Behaviour) (got : ByteArray) (k : ByteArray → Nat → Behaviour) : Behaviour :=
  match b with
  | .ends status => k got status
  | .writes s data next =>
    if s = .output then (next ()).capture (got ++ data) k
    else .writes s data fun u => (next u).capture got k
  | .reads next => .reads fun x => (next x).capture got k
  | .sleeps ms next => .sleeps ms fun u => (next u).capture got k
  | .asks next => .asks fun x => (next x).capture got k
  | .closes s next => .closes s fun u => (next u).capture got k

/-- What is left to do for a program whose output nobody reads any more: it ends at the next thing
that it writes there. -/
def unheard (b : Behaviour) (status : Nat) : Behaviour :=
  match b with
  | .ends _ => .ends status
  | .writes s data next =>
    if s = .output then .ends status else .writes s data fun u => (next u).unheard status
  | .reads next => .reads fun x => (next x).unheard status
  | .sleeps ms next => .sleeps ms fun u => (next u).unheard status
  | .asks next => .asks fun x => (next x).unheard status
  | .closes s next => .closes s fun u => (next u).unheard status

/-- The next byte of a program's output, of which some was written already. -/
def pull (b : Behaviour) (written : List UInt8)
    (k : Option UInt8 → Behaviour → List UInt8 → Behaviour) : Behaviour :=
  match written with
  | x :: rest => k (some x) b rest
  | [] =>
    match b with
    | .ends status => k none (.ends status) []
    | .writes s data next =>
      if s = .output then
        match data.data.toList with
        | x :: rest => k (some x) (next ()) rest
        | [] => (next ()).pull [] k
      else .writes s data fun u => (next u).pull [] k
    | .reads next => .reads fun x => (next x).pull [] k
    | .sleeps ms next => .sleeps ms fun u => (next u).pull [] k
    | .asks next => .asks fun x => (next x).pull [] k
    | .closes s next => .closes s fun u => (next u).pull [] k

/-- A program whose input is the output of another, of which some was written already. -/
def fedBy (c b : Behaviour) (written : List UInt8) : Behaviour :=
  match c with
  | .ends status => b.unheard status
  | .writes s data next => .writes s data fun u => (next u).fedBy b written
  | .reads next => b.pull written fun x b written => (next x).fedBy b written
  | .sleeps ms next => .sleeps ms fun u => (next u).fedBy b written
  | .asks next => (next none).fedBy b written
  | .closes s next => .closes s fun u => (next u).fedBy b written

/-- **A program that feeds another** with its output. -/
def feeding (b c : Behaviour) : Behaviour := c.fedBy b []

end Behaviour

end PaneRelay.Child
