import PaneRelay.Config.Daemon
import PaneRelay.PaneSet

/-! # The daemon

The daemon starts the hub, says where it listens, and starts the panes. It ends when all panes have
ended, or when something cannot be started.

* `Trouble`: why the daemon failed, from the outermost context to the cause.
* `run`: the daemon for a configuration. -/

namespace PaneRelay.Daemon

open PaneRelay.Config PaneRelay.Terminal

/-- **Why the daemon failed:** contexts, outermost first, and the cause. -/
structure Trouble where
  /-- What was being done. -/
  contexts : List String := []
  /-- What went wrong with it. -/
  cause : String
deriving DecidableEq, Repr

/-- The contexts and the cause. -/
def Trouble.all (t : Trouble) : List String := t.contexts ++ [t.cause]

/-- A trouble in one line. -/
def Trouble.line (t : Trouble) : String := String.intercalate ": " t.all

/-- **How the daemon ended.** -/
inductive Ending where
  /-- All panes have ended. -/
  | done
  /-- It failed. -/
  | failed (t : Trouble)
  /-- It goes on, as some pane does. -/
  | running
deriving DecidableEq, Repr

/-- **What came of the daemon:** what it said, and how it ended. -/
structure Outcome where
  /-- What it said. -/
  output : String := ""
  /-- How it ended. -/
  ending : Ending
deriving DecidableEq, Repr

/-- **Surroundings of a daemon.** -/
structure World where
  /-- How programs are started. -/
  launcher : Launcher
  /-- The shell that the surroundings name. -/
  shell : Option String
  /-- What comes of binding a port: the text of the port that is bound, or why none is. -/
  bind : Nat → Except String String

/-- The trouble of a pane that could not be started. -/
def spawnTrouble (e : PaneSet.SpawnError) : Trouble :=
  { contexts := ["failed to spawn panes", e.context], cause := e.cause.message }

/-- The panes of a configuration before any is started: the batcher runs, and what it flushes goes
to a hub in front of histories. -/
def emptySet (c : DaemonConfig) (hub : Hub) : PaneSet :=
  { batcher :=
      (Batcher.perform
        { policy := .ofSection c.stream.batch, restart := .ofSection c.stream.supervisor } .start).2
    outlet := { hub, fallback := .kept { max := c.panes.replayBytes } } }

/-- The daemon once its hub listens. -/
def runPanes (w : World) (c : DaemonConfig) (hub : Hub) : Ending :=
  let t := c.panes.terminal w.shell
  match (emptySet c hub).spawn (fun _ => Terminal.start w.launcher t) t.command
      c.panes.count.toNat with
  | (some e, _) => .failed (spawnTrouble e)
  | (none, s) => if s.awaitAll.live.isEmpty then .done else .running

/-- **The daemon.** -/
def run (w : World) (c : DaemonConfig) : Outcome :=
  if c.panes.count = 0 then { ending := .failed { cause := "at least one pane is required" } }
  else
    let policy := HubPolicy.ofSection c.stream.hub
    let bound := w.bind policy.port
    match Hub.start { policy } (bound.map fun _ => ()), bound with
    | (.ok (), hub), .ok port =>
      { output := Hub.address port ++ "\n", ending := runPanes w c hub }
    | (.error e, _), _ =>
      { ending := .failed { contexts := ["failed to start stream hub"], cause := e.message } }
    | (.ok (), _), .error _ => { ending := .failed { cause := "stream hub has no address" } }

end PaneRelay.Daemon
