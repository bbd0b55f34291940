import PaneRelay.Config.Views
import PaneRelay.PaneMap

/-! # Buffers of output

Output waits in one buffer per pane until it is due. Draining takes whole buffers: no buffer is ever
split, and a pane is told apart from every other by its ID alone.

* `Buffer.isDue`: when a buffer has to be flushed.
* `drainWhere`: the chunks of the buffers that meet a condition, and the buffers that stay.
* `Sink`: where chunks go; any of its calls may fail. -/

namespace PaneRelay.Batcher

/-- **Output of a pane that waits.** -/
structure Buffer where
  /-- The bytes that wait. -/
  data : ByteArray
  /-- When bytes were last added. -/
  lastWrite : Nat
  /-- When the first of them was added. -/
  pendingSince : Nat

/-- **A chunk:** bytes of one pane on their way to the sink. -/
structure Chunk where
  /-- The pane. -/
  pane : PaneId
  /-- The bytes. -/
  data : ByteArray

/-- Whether a buffer has to be flushed: it is full, or its pane went quiet, or its first byte has
waited long enough. -/
def Buffer.isDue (p : BatchPolicy) (now : Nat) (b : Buffer) : Bool :=
  p.maxBytes ≤ b.data.size || p.interval ≤ now - b.lastWrite || p.maxAge ≤ now - b.pendingSince

/-- Whether nothing waits in a buffer. -/
def Buffer.isIdle (b : Buffer) : Bool := b.data.isEmpty

/-- Bytes added to a buffer; a buffer that was empty starts to wait now. -/
def Buffer.add (b : Buffer) (data : ByteArray) (now : Nat) : Buffer :=
  { data := b.data ++ data
    lastWrite := now
    pendingSince := if b.isIdle then now else b.pendingSince }

/-- The buffer after a flush. -/
def Buffer.cleared (b : Buffer) : Buffer := { b with data := ByteArray.empty }

/-- The chunks of all non-empty buffers that meet a condition, oldest pane first. -/
def chunksWhere (ready : Buffer → Bool) (panes : PaneMap Buffer) : List Chunk :=
  panes.entries.filterMap fun (p, b) =>
    if !b.isIdle && ready b then some ⟨p, b.data⟩ else none

/-- The buffers after those that meet a condition were flushed. -/
def clearWhere (ready : Buffer → Bool) (panes : PaneMap Buffer) : PaneMap Buffer :=
  panes.mapVal fun _ b => if !b.isIdle && ready b then b.cleared else b

/-! ## The sink -/

/-- **A call of the sink.** -/
structure Call where
  /-- When it was made. -/
  time : Nat
  /-- What it was to deliver. -/
  chunk : Chunk
  /-- Whether it failed; what it was to deliver is then lost. -/
  failed : Bool

/-- **The sink:** the calls made so far, and which of the next calls fail, with what text. -/
structure Sink where
  /-- The calls made so far. -/
  calls : List Call := []
  /-- The fate of the calls to come, counted from 0. -/
  fate : Nat → Option String := fun _ => none

namespace Sink

/-- Delivers one chunk; the text of the failure if the call fails. -/
def deliver (s : Sink) (now : Nat) (c : Chunk) : Option String × Sink :=
  (s.fate 0,
    { calls := s.calls ++ [⟨now, c, (s.fate 0).isSome⟩], fate := fun k => s.fate (k + 1) })

/-- Delivers chunks in order, up to the first call that fails. -/
def deliverAll (s : Sink) (now : Nat) : List Chunk → Option String × Sink
  | [] => (none, s)
  | c :: cs =>
    match s.deliver now c with
    | (none, s) => deliverAll s now cs
    | (some e, s) => (some e, s)

/-- The next `n` calls fail with a text, and no others. -/
def failing (s : Sink) (n : Nat) (text : String) : Sink :=
  { s with fate := fun k => if k < n then some text else none }

/-- The chunks that arrived, with the time of each. -/
def arrived (s : Sink) : List (Nat × Chunk) :=
  s.calls.filterMap fun c => if c.failed then none else some (c.time, c.chunk)

end Sink

end PaneRelay.Batcher
