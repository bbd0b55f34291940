import PaneRelay.Hub.Basic
import PaneRelay.Replay

/-! # From flushed output to the hub

A flush goes to the hub if the live consumer asked for its pane, else to a fallback. A fallback that
keeps histories pays them back: a follower of the hub's journal sends a pane's history when the pane
is asked for.

* `Fallback`: where output goes that nobody asked for.
* `Outlet`: a hub and its fallback; `Outlet.deliver` decides between them.
* `Follower`: a reader of the journal, which may lag behind.
* `Outlet.replay`: the follower's answer to an entry. -/

namespace PaneRelay.Hub

/-- **Where output goes that nobody asked for.** -/
inductive Fallback where
  /-- It is recorded, oldest first. -/
  | recorded (chunks : List (PaneId × ByteArray))
  /-- It becomes history. -/
  | kept (replay : Replay)

/-- The fallback after a delivery. -/
def Fallback.deliver (f : Fallback) (p : PaneId) (data : ByteArray) : Fallback :=
  match f with
  | .recorded chunks => .recorded (chunks ++ [(p, data)])
  | .kept replay => .kept (replay.push p data)

/-- The fallback keeps no history of panes that are not live. -/
def Fallback.retain (f : Fallback) (live : List PaneId) : Fallback :=
  match f with
  | .recorded chunks => .recorded chunks
  | .kept replay => .kept (replay.retain live)

/-- A hub with its fallback. -/
structure Outlet where
  /-- The hub. -/
  hub : Hub
  /-- The fallback. -/
  fallback : Fallback

/-- **A flush** goes to the hub or to the fallback. -/
def Outlet.deliver (o : Outlet) (p : PaneId) (data : ByteArray) : Outlet :=
  if data.isEmpty then o
  else if o.hub.isActive && o.hub.isWanted p then { o with hub := o.hub.broadcast p data }
  else { o with fallback := o.fallback.deliver p data }

/-! ## Histories are paid back -/

/-- **A reader of the journal**: how many entries it has passed. -/
structure Follower where
  /-- The entries passed. -/
  passed : Nat := 0
deriving DecidableEq, Repr

/-- What a reader of the journal gets. -/
inductive Signal where
  /-- The next entry. -/
  | entry (e : Event)
  /-- So many entries are gone before they could be read. -/
  | lagged (n : Nat)
deriving DecidableEq, Repr

/-- How many entries are kept for a reader. -/
def journalRoom : Nat := 64

/-- The next thing to read. A reader too far behind is told how far, and goes on with the oldest
entry that is kept. -/
def Follower.next (f : Follower) (journal : List Event) : Option (Signal × Follower) :=
  if f.passed + journalRoom < journal.length then
    some (.lagged (journal.length - journalRoom - f.passed), ⟨journal.length - journalRoom⟩)
  else (journal[f.passed]?).map fun e => (.entry e, ⟨f.passed + 1⟩)

/-- Sends a pane's history, which is then gone. -/
def Outlet.replay (o : Outlet) (p : PaneId) : Outlet :=
  match o.fallback with
  | .recorded _ => o
  | .kept r =>
    match r.take p with
    | (none, _) => o
    | (some data, r) => { hub := o.hub.broadcast p data, fallback := .kept r }

/-- **The follower's answer:** panes that are asked for get their history. -/
def Outlet.answer (o : Outlet) : Signal → Outlet
  | .entry (.subscribed panes) => panes.foldl Outlet.replay o
  | _ => o

/-- The follower reads on, up to so many times. -/
def Outlet.follow : (fuel : Nat) → Outlet → Follower → Outlet × Follower
  | 0, o, f => (o, f)
  | fuel + 1, o, f =>
    match f.next o.hub.journal with
    | some (s, f) => Outlet.follow fuel (o.answer s) f
    | none => (o, f)

end PaneRelay.Hub
