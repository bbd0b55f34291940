import PaneRelay.Batcher.Basic
import PaneRelay.Hub.Route
import PaneRelay.Terminal.Basic

/-! # Panes

A pane is a terminal with a read loop, whose output goes to the batcher and from there to the
outlet. When the program of a pane has ended, its last output is flushed and nothing of it is kept.

* `PaneSet`: the panes, which of them are live, and where their output goes.
* `spawn`: starts panes, up to the first that cannot be started.
* `retire`: what happens to a pane whose output has ended.
* `awaitAll`, `shutdown`: the two ways in which panes come to their ends. -/

namespace PaneRelay

open Terminal (TerminalError)

/-- **A pane.** -/
structure Pane where
  /-- What it is called. -/
  id : PaneId
  /-- Its terminal. -/
  terminal : Terminal

/-- **Panes**, and where their output goes. -/
structure PaneSet where
  /-- The panes, oldest first. -/
  panes : List Pane := []
  /-- The panes whose output has not ended. -/
  live : List PaneId := []
  /-- The batcher that gets their output. -/
  batcher : Batcher
  /-- Where flushed output goes. -/
  outlet : Hub.Outlet

namespace PaneSet

/-! ## Starting -/

/-- The ID of a pane by its number. -/
def idOf (i : Nat) : PaneId := "%" ++ toString i

/-- **A pane that could not be started.** -/
structure SpawnError where
  /-- The pane. -/
  pane : PaneId
  /-- Its program. -/
  command : String
  /-- What went wrong. -/
  cause : TerminalError
deriving DecidableEq, Repr

/-- What is said of a pane that could not be started, the cause apart. -/
def SpawnError.context (e : SpawnError) : String :=
  "failed to start pane " ++ e.pane ++ " (" ++ e.command ++ ")"

/-- One more pane. -/
def add (s : PaneSet) (id : PaneId) (t : Terminal) : PaneSet :=
  { s with panes := s.panes ++ [⟨id, t⟩], live := s.live ++ [id] }

/-- Starts `n` panes from number `i` on. The panes that were started before a failure stay. -/
def spawnFrom (start : Nat → Except TerminalError Terminal) (command : String) :
    (n i : Nat) → PaneSet → Option SpawnError × PaneSet
  | 0, _, s => (none, s)
  | n + 1, i, s =>
    match start i with
    | .error cause => (some ⟨idOf i, command, cause⟩, s)
    | .ok t => spawnFrom start command n (i + 1) (s.add (idOf i) t)

/-- **Starts panes.** -/
def spawn (s : PaneSet) (start : Nat → Except TerminalError Terminal) (command : String)
    (count : Nat) : Option SpawnError × PaneSet :=
  spawnFrom start command count 0 s

/-! ## Output -/

/-- Hands on what the batcher has flushed. -/
def forward (s : PaneSet) : PaneSet :=
  { s with
    outlet := s.batcher.sink.arrived.foldl (fun o (_, c) => o.deliver c.pane c.data) s.outlet
    batcher := { s.batcher with sink := { s.batcher.sink with calls := [] } } }

/-- Asks something of the batcher. -/
def ask (s : PaneSet) (op : Batcher.Op) : PaneSet :=
  { s with batcher := (s.batcher.perform op).2 }.forward

/-- Output of a pane. -/
def write (s : PaneSet) (id : PaneId) (chunks : List ByteArray) : PaneSet :=
  chunks.foldl (fun s chunk => s.ask (.write id chunk)) s

/-- The same panes with another terminal in one of them. -/
def withTerminal (s : PaneSet) (id : PaneId) (t : Terminal) : PaneSet :=
  { s with panes := s.panes.map fun p => if p.id = id then { p with terminal := t } else p }

/-! ## Ending -/

/-- **A pane whose output has ended** is closed and flushed, and its history goes with it. -/
def retire (s : PaneSet) (p : Pane) : PaneSet :=
  let s := (s.withTerminal p.id p.terminal.close.2).ask (.remove p.id)
  let live := s.live.filter fun id => id ≠ p.id
  let s := { s with live }.ask (.retain live)
  { s with outlet := { s.outlet with fallback := s.outlet.fallback.retain live } }

/-- Reads a pane to the end of its output, if that comes by itself. -/
def awaitOne (s : PaneSet) (p : Pane) : PaneSet :=
  match p.terminal.readLoop with
  | (none, t) => s.withTerminal p.id t
  | (some (chunks, _), t) => (s.write p.id chunks).retire { p with terminal := t }

/-- **Waits for the ends of all panes** that come by themselves. -/
def awaitAll (s : PaneSet) : PaneSet := s.panes.foldl awaitOne s

/-- Closes a pane whose read loop is at work. -/
def closeOne (s : PaneSet) (p : Pane) : PaneSet :=
  if s.live.contains p.id then
    let (chunks, t) := p.terminal.closeReading
    (s.write p.id chunks).retire { p with terminal := t }
  else s

/-- **Closes all panes** and waits for their read loops. -/
def shutdown (s : PaneSet) : PaneSet := s.panes.foldl closeOne s

end PaneSet

end PaneRelay
