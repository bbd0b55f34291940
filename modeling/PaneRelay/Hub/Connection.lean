import PaneRelay.Config.Views
import PaneRelay.Hub.Outbox
import PaneRelay.Hub.Socket
import PaneRelay.Metrics

/-! # A connection

Three loops serve a consumer: one reads, one writes, one keeps the connection alive. The first
reason to end is the one that counts. Once the loops have stopped, a close frame is written, for
which there is as much time as for any other message.

* `Connection.conclude`: a reason to end.
* `Connection.beat`: a tick of the keepalive.
* `Connection.drain`: the writer takes what waits.
* `Connection.expire`: deadlines.
* `Connection.work`: what happens without any time passing. -/

namespace PaneRelay.Hub

/-- **What the writer of a connection is about.** -/
inductive Writer where
  /-- It waits for a message. -/
  | ready
  /-- A message does not get through; there is a deadline for it. -/
  | stuck (m : Outgoing) (deadline : Nat)
  /-- The close frame does not get through, perhaps for a message before it. -/
  | closing (m : Option Outgoing) (deadline : Nat)
  /-- The connection is over. -/
  | finished

/-- Whether the connection is over for the writer. -/
def Writer.isFinished : Writer → Bool
  | .finished => true
  | _ => false

/-- **A connection.** -/
structure Connection where
  /-- Its number. -/
  id : Nat
  /-- What waits for the writer. -/
  outbox : Outbox := {}
  /-- Whether its token has fired. -/
  cancelled : Bool := false
  /-- Why it ends, if one of its loops knows. -/
  reason : Option String := none
  /-- When the consumer was last heard of. -/
  lastInbound : Nat
  /-- When the next ping is due. -/
  nextTick : Nat
  /-- The writer. -/
  writer : Writer := .ready
  /-- The socket. -/
  socket : Socket := {}

namespace Connection

/-- A connection made at a moment. -/
def fresh (p : HubPolicy) (id now : Nat) : Connection :=
  { id, lastInbound := now, nextTick := now + p.pingInterval }

/-- **A reason to end.** The first one counts. -/
def conclude (c : Connection) (reason : String) : Connection :=
  { c with reason := c.reason <|> some reason, cancelled := true }

/-- The token fires. -/
def cancel (c : Connection) : Connection := { c with cancelled := true }

/-- The consumer was heard of. -/
def hear (c : Connection) (now : Nat) : Connection := { c with lastInbound := now }

/-- Whether the consumer has seen the connection end, or ended it. -/
def isOver (c : Connection) : Bool :=
  c.socket.left || (c.socket.reading && c.writer.isFinished)

/-! ## Keepalive -/

/-- A tick that is served later than this moves the ticks after it. -/
def tickSlack : Nat := 5

/-- When the tick after one due at `due` is due, if that was served at `now`. -/
def tickAfter (interval due now : Nat) : Nat :=
  if due + tickSlack < now then now + interval else due + interval

/-- **A tick of the keepalive.** Silence that has lasted too long ends the connection; else a ping
is queued, unless the queue is full. -/
def beat (p : HubPolicy) (now : Nat) (c : Connection) : Connection :=
  let c := { c with nextTick := tickAfter p.pingInterval c.nextTick now }
  if p.pongTimeout ≤ now - c.lastInbound then c.conclude "keepalive timeout"
  else { c with outbox := c.outbox.offer p.sendQueueCapacity .ping }

/-- The keepalive at a moment. -/
def keepAlive (p : HubPolicy) (now : Nat) (c : Connection) : Connection :=
  if !c.cancelled && c.nextTick ≤ now then c.beat p now else c

/-! ## Writing -/

/-- The close frame. -/
def closeFrame : Item := .close 1000 "hub closing connection"

/-- A message arrives. A consumer that reads answers a ping. -/
def deliver (now : Nat) (m : Outgoing) (c : Connection) : Connection :=
  match m with
  | .frame bytes _ => { c with socket := c.socket.put (.binary bytes) }
  | .text t => { c with socket := c.socket.put (.text t) }
  | .ping => if c.socket.reading && !c.socket.left then c.hear now else c

/-- The counters after a message was written. -/
def written (m : Outgoing) (metrics : Metrics) : Metrics :=
  match m with
  | .frame _ count => metrics.sent count
  | _ => metrics

/-- **The writer takes what waits**, up to a message that does not get through. -/
def drain (p : HubPolicy) (now : Nat) :
    List Outgoing → Connection → Metrics → Connection × Metrics
  | [], c, metrics => (c, metrics)
  | m :: rest, c, metrics =>
    let c := { c with outbox := c.outbox.next }
    if c.socket.accepts m.size then drain p now rest (c.deliver now m) (written m metrics)
    else ({ c with writer := .stuck m (now + p.writeTimeout) }, metrics)

/-- **Deadlines:** a message that did not get through in time ends the connection, and a close frame
is given up. -/
def expire (now : Nat) (c : Connection) (metrics : Metrics) : Connection × Metrics :=
  match c.writer with
  | .stuck _ deadline =>
    if !c.cancelled && deadline ≤ now then (c.conclude "write timed out", metrics.writeTimeout)
    else (c, metrics)
  | .closing _ deadline => (if deadline ≤ now then { c with writer := .finished } else c, metrics)
  | _ => (c, metrics)

/-- The close frame is written. -/
def close (c : Connection) : Connection :=
  { c with socket := c.socket.put closeFrame, writer := .finished }

/-- A connection that ends tries to write its close frame, behind a message that was being
written. -/
def windDown (p : HubPolicy) (now : Nat) (c : Connection) : Connection :=
  match c.writer with
  | .ready =>
    if c.socket.accepts closeFrame.size then c.close
    else { c with writer := .closing none (now + p.writeTimeout) }
  | .stuck m _ =>
    if c.socket.accepts m.size then (c.deliver now m).close
    else { c with writer := .closing (some m) (now + p.writeTimeout) }
  | .closing m _ =>
    match m with
    | none => if c.socket.accepts closeFrame.size then c.close else c
    | some m => if c.socket.accepts m.size then (c.deliver now m).close else c
  | .finished => c

/-- **What happens without any time passing:** the writer goes on, or the connection winds down. -/
def work (p : HubPolicy) (now : Nat) (c : Connection) (metrics : Metrics) : Connection × Metrics :=
  if c.cancelled then (c.windDown p now, metrics)
  else
    match c.writer with
    | .ready => drain p now c.outbox.waiting c metrics
    | .stuck m _ =>
      if c.socket.accepts m.size then
        let c := { c.deliver now m with writer := .ready }
        drain p now c.outbox.waiting c (written m metrics)
      else (c, metrics)
    | _ => (c, metrics)

/-- What a moment brings: deadlines, a tick, then the work. -/
def serve (p : HubPolicy) (now : Nat) (c : Connection) (metrics : Metrics) : Connection × Metrics :=
  let (c, metrics) := c.expire now metrics
  (c.keepAlive p now).work p now metrics

end Connection

end PaneRelay.Hub
