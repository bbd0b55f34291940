import PaneRelay.PaneMap

/-! # Replay history

A replay buffer keeps the last `max` bytes of every pane, so that a consumer can be shown what it
missed. Panes are independent of each other.

* `append`: the stored bytes after more output, in three cases.
* `Replay.push`, `Replay.history`, `Replay.forget`, `Replay.retain`: the buffer.
* `Replay.take`: a history handed out once. -/

namespace PaneRelay

/-- The last `max` bytes of `old ++ data`, given that `old` holds at most `max`: output that fills
the buffer by itself replaces it, else the oldest bytes make room. -/
def Replay.append (max : Nat) (old data : ByteArray) : ByteArray :=
  if max ≤ data.size then data.extract (data.size - max) data.size
  else old.extract (old.size + data.size - max) old.size ++ data

/-- **A replay buffer:** up to `max` bytes of each pane. -/
structure Replay where
  /-- The bytes kept per pane. -/
  max : Nat
  /-- The panes that have a history. -/
  panes : PaneMap ByteArray := PaneMap.empty

namespace Replay

/-- The bytes kept per pane when nothing else is asked for. -/
def defaultMax : Nat := 65536

/-- A pane's history, if it has one. -/
def history (r : Replay) (p : PaneId) : Option ByteArray := r.panes.find? p

/-- The length of a pane's history. -/
def len (r : Replay) (p : PaneId) : Nat := ((r.history p).map ByteArray.size).getD 0

/-- Output of a pane. Empty output leaves no trace, and a buffer of size zero keeps nothing. -/
def push (r : Replay) (p : PaneId) (data : ByteArray) : Replay :=
  if data.isEmpty || r.max == 0 then r
  else { r with panes := r.panes.insert p (append r.max ((r.history p).getD ByteArray.empty) data) }

/-- Drops a pane's history. -/
def forget (r : Replay) (p : PaneId) : Replay := { r with panes := r.panes.erase p }

/-- Drops the history of every pane that is not live. -/
def retain (r : Replay) (live : List PaneId) : Replay :=
  { r with panes := r.panes.keep (fun p => live.contains p) }

/-- Hands a pane's history out and drops it. -/
def take (r : Replay) (p : PaneId) : Option ByteArray × Replay := (r.history p, r.forget p)

end Replay

end PaneRelay
