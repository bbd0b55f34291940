import PaneRelay.Batcher.Buffer
import PaneRelay.Supervisor

/-! # The output batcher

Writers add bytes to the buffers of their panes; a supervised loop flushes what is due. The loop's
tick grows while nothing happens, and a writer wakes the loop when it ends such a time or fills a
buffer. After `stop` nothing flushes any more, so output goes straight to the sink.

* `Batcher`: the state, its sink and clock included.
* `write`, `remove`, `retain`, `flushDue`, `flushAll`: what happens in one step.
* `turn`: one step of the loop, and `settle`: its steps until it waits.
* `advance`: the passing of time.
* `perform`: an operation together with the loop's answer to it. -/

namespace PaneRelay

/-- **The task that runs the loop.** -/
inductive Batcher.Task where
  /-- It was not started. -/
  | absent
  /-- It runs: the supervised loop, the loop's tick and when the tick ends. -/
  | active (loop : Supervisor.State) (period deadline : Nat)
  /-- It has ended. -/
  | done
deriving DecidableEq, Repr

open Batcher in
/-- **A batcher** with its sink and clock. -/
structure Batcher where
  /-- How output is batched. -/
  policy : BatchPolicy
  /-- How the loop is restarted. -/
  restart : RestartPolicy
  /-- The present moment. -/
  now : Nat := 0
  /-- The buffers of the panes that are tracked. -/
  panes : PaneMap Buffer := PaneMap.empty
  /-- Empty buffers kept for new panes. -/
  pool : List ByteArray := []
  /-- Whether the loop found nothing to do when it last looked. -/
  idle : Bool := false
  /-- Whether a wake-up is stored for the loop. -/
  wake : Bool := false
  /-- Whether the token given to the loop has fired. -/
  shutdown : Bool := false
  /-- Whether the batcher's own token has fired. -/
  cancelled : Bool := false
  /-- Whether output goes straight to the sink. -/
  stopped : Bool := false
  /-- The task. -/
  task : Task := .absent
  /-- The sink. -/
  sink : Sink := {}
  /-- What the supervisor reported. -/
  events : List Supervisor.Event := []

namespace Batcher

/-- What the loop is called in reports. -/
def loopName : String := "output-batcher"

/-! ## Buffers in one step -/

/-- A buffer for a new pane, recycled if the pool has one. -/
def takeBuffer (b : Batcher) : ByteArray × List ByteArray :=
  match b.pool with
  | [] => (ByteArray.empty, [])
  | d :: pool => (d, pool)

/-- Adds bytes to a pane's buffer. Says whether the buffer was empty before, and whether it now has
reached the size that makes it due. The moment that the buffer notes is that of this step; a writer
that has to wait for the buffers has looked at its clock before, and notes an earlier one. -/
def append (b : Batcher) (p : PaneId) (data : ByteArray) : Batcher × (Bool × Bool) :=
  let (old, pool) : Buffer × List ByteArray :=
    match b.panes.find? p with
    | some buffer => (buffer, b.pool)
    | none =>
      let (d, pool) := takeBuffer b
      (⟨d, b.now, b.now⟩, pool)
  let new := old.add data b.now
  ({ b with panes := b.panes.insert p new, pool },
    (old.isIdle, old.data.size < b.policy.maxBytes && b.policy.maxBytes ≤ new.data.size))

/-- Stores a wake-up if the writer's append calls for one. -/
def signal (b : Batcher) (first crossed : Bool) : Batcher :=
  if crossed || (first && b.idle) then { b with wake := true } else b

/-- **Output of a pane.** Says with what text the sink failed, if output went straight to it and it
did. -/
def write (b : Batcher) (p : PaneId) (data : ByteArray) : Option String × Batcher :=
  if data.isEmpty then (none, b)
  else if b.stopped then
    let (e, sink) := b.sink.deliver b.now ⟨p, data⟩
    (e, { b with sink })
  else
    let (b, first, crossed) := b.append p data
    (none, b.signal first crossed)

/-- Hands drained chunks to the sink. -/
def hand (b : Batcher) (chunks : List Chunk) : Option String × Batcher :=
  let (e, sink) := b.sink.deliverAll b.now chunks
  (e, { b with sink })

/-- **A flush round:** every buffer that is due is drained, then the chunks are delivered. -/
def flushDue (b : Batcher) : Option String × Batcher :=
  let due := Buffer.isDue b.policy b.now
  let chunks := chunksWhere due b.panes
  { b with panes := clearWhere due b.panes }.hand chunks

/-- What a flush round has counted so far, and the next buffer: an empty one is passed by, one that
is due counts, and any other is left waiting. -/
def tallied (ready : Buffer → Bool) (found : Nat × Bool) (e : PaneId × Buffer) : Nat × Bool :=
  if e.2.isIdle then found
  else if ready e.2 then (found.1 + 1, found.2)
  else (found.1, true)

/-- **What a flush round counts** on its way through the buffers: how many it drains, and whether it
leaves others that hold bytes. -/
def roundCount (b : Batcher) : Nat × Bool :=
  b.panes.entries.foldl (tallied (Buffer.isDue b.policy b.now)) (0, false)

/-- Flushes every buffer. -/
def flushAll (b : Batcher) : Option String × Batcher :=
  let chunks := chunksWhere (fun _ => true) b.panes
  { b with panes := clearWhere (fun _ => true) b.panes }.hand chunks

/-- Delivers what is left of panes no longer tracked. A buffer that was empty returns to the
pool. -/
def release (b : Batcher) : List (PaneId × Buffer) → Option String × Batcher
  | [] => (none, b)
  | (p, buffer) :: rest =>
    if buffer.isIdle then
      let pool := if b.pool.length < b.policy.poolCapacity then buffer.data :: b.pool else b.pool
      release { b with pool } rest
    else
      match b.sink.deliver b.now ⟨p, buffer.data⟩ with
      | (none, sink) => release { b with sink } rest
      | (some e, sink) => (some e, { b with sink })

/-- **Keeps the panes that pass a test** and releases the others, whose IDs are returned. -/
def retain (b : Batcher) (live : PaneId → Bool) : Option String × List PaneId × Batcher :=
  let stale := b.panes.entries.filter fun (p, _) => !live p
  let (e, b) := { b with panes := b.panes.keep live }.release stale
  (e, stale.map Prod.fst, b)

/-- Releases one pane. -/
def remove (b : Batcher) (p : PaneId) : Option String × Batcher :=
  match b.panes.find? p with
  | none => (none, b)
  | some buffer => { b with panes := b.panes.erase p }.release [(p, buffer)]

/-! ## The loop -/

/-- Starts the task, once and not after `stop`. -/
def start (b : Batcher) : Batcher :=
  match b.task with
  | .absent => if b.stopped then b else { b with task := .active (.fresh b.restart) 0 0 }
  | _ => b

/-- The tick after a flush round that drained some buffers and left others waiting, or not. -/
def nextPeriod (p : BatchPolicy) (period flushed : Nat) (pending : Bool) : Nat :=
  if flushed = 0 && !pending then min (period * 2) p.idleInterval else p.interval

/-- The loop looks for buffers that are due, and sets its tick by what it found. A failure of the
sink ends the attempt. -/
def look (b : Batcher) (loop : Supervisor.State) (period : Nat) : Batcher :=
  let (flushed, pending) := b.roundCount
  match b.flushDue with
  | (some e, b) =>
    let loop := loop.finish b.restart loopName b.now (.panicked (some e))
    { b with task := .active { loop with events := [] } period b.now
             events := b.events ++ loop.events }
  | (none, b) =>
    let period := nextPeriod b.policy period flushed pending
    { b with idle := flushed = 0 && !pending, task := .active loop period (b.now + period) }

/-- **One step of the task** at the present moment, if it has one to take. Where there are several,
one is picked: that the token has fired comes first, then a wake-up, then the end of a tick or of a
pause, and a token that is to be passed on comes last. A task that picks otherwise keeps all the
same promises (`Picked`, in the proofs). -/
def turn (b : Batcher) : Option Batcher :=
  match b.task with
  | .active loop period deadline =>
    match loop.phase with
    | .done _ =>
      if b.cancelled then some { b.flushAll.2 with task := .done }
      else if b.shutdown then some { b with cancelled := true }
      else none
    | phase =>
      if b.cancelled then some { b with task := .active loop.cancel period deadline }
      else
        match phase with
        | .ready =>
          some { b with task := .active (loop.begin b.now) b.policy.interval
                          (b.now + b.policy.interval) }
        | .running _ =>
          if b.wake then some ({ b with wake := false }.look loop period)
          else if deadline ≤ b.now then some (b.look loop period)
          else if b.shutdown then some { b with cancelled := true }
          else none
        | .pausing ends =>
          if ends ≤ b.now then
            some { b with task := .active (loop.resume b.restart) period deadline }
          else if b.shutdown then some { b with cancelled := true }
          else none
        | .done _ => none
  | _ => none

/-- Up to `fuel` steps of the task, as long as it has one to take. -/
def turns : Nat → Batcher → Batcher
  | 0, b => b
  | fuel + 1, b =>
    match b.turn with
    | some b => turns fuel b
    | none => b

/-- The steps of the task until it waits. At one moment it takes no more than one wake-up and one
tick, and after either at most one pause of no length. -/
def settle (b : Batcher) : Batcher := turns 16 b

/-- The moment at which the task goes on by itself, if it waits for one. -/
def nextTimer (b : Batcher) : Option Nat :=
  match b.task with
  | .active loop _ deadline =>
    match loop.phase with
    | .running _ => some deadline
    | .pausing ends => some ends
    | _ => none
  | _ => none

/-- The passing of time up to a moment, with at most `fuel` timers on the way. -/
def advanceTo : (fuel till : Nat) → Batcher → Batcher
  | 0, till, b => { b with now := till }
  | fuel + 1, till, b =>
    match b.nextTimer with
    | some t => if t ≤ till then advanceTo fuel till (settle { b with now := max b.now t })
                else { b with now := till }
    | none => { b with now := till }

/-- **The passing of time.** Timers are at least a millisecond apart. -/
def advance (b : Batcher) (ms : Nat) : Batcher := advanceTo (ms + 1) (b.now + ms) b

/-- Stops the batcher: the task ends, what is left is flushed, and from then on output goes straight
to the sink. -/
def stop (b : Batcher) : Option String × Batcher :=
  let b := settle { b with cancelled := true }
  { b with stopped := true }.flushAll

/-! ## Operations -/

/-- **What can be asked of a batcher.** -/
inductive Op where
  /-- Start the loop. -/
  | start
  /-- Add output of a pane. -/
  | write (p : PaneId) (data : ByteArray)
  /-- Add output of several panes, without a turn for the loop in between. -/
  | writes (items : List (PaneId × ByteArray))
  /-- Let time pass. -/
  | sleep (ms : Nat)
  /-- Release a pane. -/
  | remove (p : PaneId)
  /-- Release all panes but those listed. -/
  | retain (live : List PaneId)
  /-- Fire the token given to the loop. -/
  | cancel
  /-- Stop. -/
  | stop

/-- **What comes back.** -/
inductive Reply where
  /-- Nothing to report. -/
  | done
  /-- The panes that were released. -/
  | removed (ids : List PaneId)
  /-- The sink failed. -/
  | panicked (text : String)
deriving DecidableEq, Repr

/-- A reply that reports a failure of the sink, if there was one. -/
def replyOr (e : Option String) (r : Reply) : Reply := (e.map Reply.panicked).getD r

/-- Several writes, up to one at which the sink fails. -/
def writeAll (b : Batcher) : List (PaneId × ByteArray) → Option String × Batcher
  | [] => (none, b)
  | (p, data) :: items =>
    match b.write p data with
    | (none, b) => writeAll b items
    | (some e, b) => (some e, b)

/-- An operation alone. -/
def apply (b : Batcher) : Op → Reply × Batcher
  | .start => (.done, b.start)
  | .write p data => let (e, b) := b.write p data; (replyOr e .done, b)
  | .writes items => let (e, b) := b.writeAll items; (replyOr e .done, b)
  | .sleep ms => (.done, b.advance ms)
  | .remove p => let (e, b) := b.remove p; (replyOr e .done, b)
  | .retain live =>
    let (e, ids, b) := b.retain (fun p => live.contains p)
    (replyOr e (.removed ids), b)
  | .cancel => (.done, { b with shutdown := true })
  | .stop => let (e, b) := b.stop; (replyOr e .done, b)

/-- **An operation**, and then the loop's steps until it waits. -/
def perform (b : Batcher) (op : Op) : Reply × Batcher :=
  let (r, b) := b.apply op
  (r, b.settle)

end Batcher

end PaneRelay
