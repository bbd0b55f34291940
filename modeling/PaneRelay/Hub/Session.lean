import PaneRelay.Hub.Route

/-! # A hub, its consumers and the clock

The clock stands still except when time is asked to pass. After each operation all that follows from
it has happened.

* `Session`: an outlet, the follower of its hub and the clock.
* `Session.Op`, `Session.Reply`: what can be asked, and what comes back.
* `Session.settle`: all that follows at a moment.
* `Session.perform`: an operation, with a report of what it changed. -/

namespace PaneRelay.Hub

/-- **A hub in use.** -/
structure Session where
  /-- The present moment. -/
  now : Nat := 0
  /-- The hub and its fallback. -/
  outlet : Outlet
  /-- The follower of the hub's journal. -/
  follower : Follower := {}
  /-- The consumer being shown out by a stop, and how long the stop waits for it. -/
  leaving : Option (Nat × Nat) := none
  /-- Whether somebody waits to join a stop. -/
  joinable : Bool := false

namespace Session

/-- **What can be asked.** -/
inductive Op where
  /-- Start the hub. -/
  | start
  /-- A consumer connects. -/
  | connect
  /-- A consumer sends a text. -/
  | send (client : Nat) (text : String)
  /-- A consumer sends a binary message. -/
  | sendBinary (client : Nat)
  /-- Output of panes, without a turn for the writer in between. -/
  | broadcasts (items : List (PaneId × ByteArray))
  /-- A flush. -/
  | route (p : PaneId) (data : ByteArray)
  /-- Are these panes asked for? -/
  | query (panes : List PaneId)
  /-- A consumer sends a close frame. -/
  | close (client : Nat) (code : Option Nat)
  /-- A consumer's connection breaks. -/
  | drop (client : Nat)
  /-- A consumer stops to read. -/
  | mute (client : Nat)
  /-- A consumer reads again. -/
  | unmute (client : Nat)
  /-- Time passes. -/
  | advance (ms : Nat)
  /-- The token given to the hub fires. -/
  | cancel
  /-- Stop the hub. -/
  | stop
  /-- Begin to stop the hub, without waiting. -/
  | stopBegin
  /-- Wait for a stop that was begun so. -/
  | stopJoin

/-- **What comes back.** -/
inductive Reply where
  /-- Nothing. -/
  | none
  /-- A start that worked. -/
  | started
  /-- A stop that worked. -/
  | stopped
  /-- A call that failed. -/
  | failed (e : HubError)
  /-- The consumer that connected. -/
  | client (i : Nat)
  /-- Whether each pane is asked for. -/
  | wanted (l : List Bool)
  /-- Why there was nothing to do. -/
  | refused (why : String)

/-- Changes the hub. -/
def mapHub (s : Session) (f : Hub → Hub) : Session :=
  { s with outlet := { s.outlet with hub := f s.outlet.hub } }

/-- The hub. -/
def hub (s : Session) : Hub := s.outlet.hub

/-! ## What follows -/

/-- The follower reads what is there. Its answers write no entry that it has to answer, so it comes
to an end. -/
def follow (s : Session) : Session :=
  let (outlet, follower) := s.outlet.follow (s.hub.journal.length + 64) s.follower
  { s with outlet, follower }

/-- A stop ends when the consumer that is being shown out has gone, or has had its time. -/
def release (s : Session) : Session :=
  match s.leaving with
  | none => s.mapHub Hub.finishStop
  | some (id, till) =>
    match s.hub.connection? id with
    | none => { s with leaving := none }.mapHub Hub.finishStop
    | some c =>
      if c.writer.isFinished || till ≤ s.now then
        { s with leaving := none }.mapHub Hub.finishStop
      else s

/-- One round of what follows: histories, then the connections, then a stop that waits. -/
def round (s : Session) : Session := (s.follow.mapHub (fun h => h.serve s.now)).release

/-- **All that follows at a moment.** A deadline of no length falls due at once, and each connection
has two of them. -/
def settle (s : Session) : Session := s.round.round.round

/-! ## Time -/

/-- The longest step of the clock. -/
def tick : Nat := 1000

/-- Time passes in one step. -/
def step (s : Session) (ms : Nat) : Session := settle { s with now := s.now + ms }

/-- So many full steps. -/
def steps : Nat → Session → Session
  | 0, s => s
  | n + 1, s => steps n (s.step tick)

/-- **Time passes** in steps and a rest. -/
def advance (s : Session) (ms : Nat) : Session :=
  let s := steps (ms / tick) s
  if ms % tick = 0 then s else s.step (ms % tick)

/-! ## Consumers -/

/-- Does something with a consumer that is there and connected. -/
def withClient (s : Session) (i : Nat) (f : Nat → Connection → Session) : Reply × Session :=
  match s.hub.connection? (i + 1) with
  | none => (.refused "no such client", s)
  | some c => if c.isOver then (.refused "not connected", s) else (.none, f (i + 1) c)

/-- A consumer says something that its connection still hears. -/
def hears (s : Session) (id : Nat) (c : Connection) (f : Hub → Hub) : Session :=
  if c.cancelled then s else (s.mapHub (fun h => h.modify id (fun c => c.hear s.now))).mapHub f

/-- Whether a consumer may close with a code: the codes that have a meaning on the wire, and those
left to libraries and applications. -/
def isCloseCode (code : Nat) : Bool :=
  [1000, 1001, 1002, 1003, 1007, 1008, 1009, 1010, 1011, 1012, 1013].contains code ||
    (3000 ≤ code && code ≤ 4999)

/-- The code of a violated protocol, which stands for any code that may not be used. -/
def protocolCode : Nat := 1002

/-- Why a connection ends when the consumer closes it. -/
def closedReason : Option Nat → String
  | none => "peer closed"
  | some code =>
    "peer closed (" ++ toString (if isCloseCode code then code else protocolCode) ++ ")"

/-- Why a connection ends when it breaks. -/
def brokenReason : String :=
  "read failed: WebSocket protocol error: Connection reset without closing handshake"

/-- A consumer goes away, for a reason that its connection learns if it still listens. -/
def leaves (s : Session) (id : Nat) (c : Connection) (reason : String) : Session :=
  s.mapHub fun h => h.modify id fun d =>
    let d := if c.cancelled then d else d.conclude reason
    { d with socket := d.socket.leave }

/-! ## Stopping -/

/-- Begins to stop; the consumer that is live then may take until its close frame is written. -/
def beginStop (s : Session) : Session :=
  if s.hub.life.stopped.isSome || s.hub.life.draining then s
  else
    let leaving := if s.hub.life.running
      then s.hub.live.map fun id => (id, s.now + s.hub.policy.writeTimeout + 100) else none
    settle { s.mapHub Hub.beginStop with leaving }

/-- Waits for a stop; if a consumer holds it up, time passes until the close frame is given up. -/
def awaitStop (s : Session) : Session :=
  if s.hub.life.isStopping then s.step (s.hub.policy.writeTimeout + 100) else s

/-- What the first stop came to. -/
def stopReply (s : Session) : Reply :=
  match s.hub.life.stopped with
  | some (.ok ()) => .stopped
  | some (.error e) => .failed e
  | none => .none

/-! ## Operations -/

/-- A consumer connects, if the hub can be found and lets it in. -/
def connect (s : Session) : Reply × Session :=
  if s.hub.life.closed || !(s.hub.life.running || s.hub.life.draining) then
    (.refused "no address", s)
  else if s.hub.life.draining then (.refused "http 503", s)
  else (.client s.hub.issued, s.mapHub (fun h => h.accept s.now))

/-- An operation alone. -/
def apply (s : Session) : Op → Reply × Session
  | .start =>
    let (r, h) := s.hub.start (.ok ())
    let s := s.mapHub (fun _ => h)
    match r with
    | .ok () => (.started, s)
    | .error e => (.failed e, s)
  | .connect => s.connect
  | .send i text => s.withClient i fun id c => s.hears id c (fun h => h.receive id text)
  | .sendBinary i => s.withClient i fun id c => s.hears id c (fun h => h)
  | .broadcasts items =>
    (.none, s.mapHub fun h => items.foldl (fun h (p, data) => h.broadcast p data) h)
  | .route p data => (.none, { s with outlet := s.outlet.deliver p data })
  | .query panes => (.wanted (panes.map s.hub.isWanted), s)
  | .close i code => s.withClient i fun id c => s.leaves id c (closedReason code)
  | .drop i => s.withClient i fun id c => s.leaves id c brokenReason
  | .mute i => s.withClient i fun id _ =>
      s.mapHub fun h => h.modify id fun c => { c with socket := c.socket.mute }
  | .unmute i => s.withClient i fun id c =>
      (s.hears id c (fun h => h)).mapHub fun h => h.modify id fun c =>
        { c with socket := c.socket.read }
  | .advance ms => (.none, s.advance ms)
  | .cancel => (.none, s.mapHub Hub.cancel)
  | .stop =>
    let s := s.beginStop.awaitStop
    (s.stopReply, s)
  | .stopBegin => (.none, { s.beginStop with joinable := true })
  | .stopJoin =>
    if s.joinable then
      let s := { s.awaitStop with joinable := false }
      (s.stopReply, s)
    else (.refused "not stopping", s)

/-! ## Reports -/

/-- **What an operation changed.** -/
structure Report where
  /-- What came back. -/
  reply : Reply
  /-- New entries of the journal. -/
  events : List Event
  /-- What each consumer got that got something. -/
  received : List (Nat × List Item)
  /-- What the fallback recorded. -/
  fallback : List (PaneId × ByteArray)

/-- What the fallback has recorded. -/
def recorded (s : Session) : List (PaneId × ByteArray) :=
  match s.outlet.fallback with
  | .recorded chunks => chunks
  | .kept _ => []

/-- How much a consumer had got. -/
def receivedCount (s : Session) (id : Nat) : Nat :=
  ((s.hub.connection? id).map fun c => c.socket.received.length).getD 0

/-- What each consumer got between two moments. -/
def gains (before after : Session) : List (Nat × List Item) :=
  after.hub.connections.filterMap fun c =>
    let got := c.socket.received.drop (before.receivedCount c.id)
    if got.isEmpty then none else some (c.id - 1, got)

/-- **An operation**, and all that follows from it. -/
def perform (s : Session) (op : Op) : Report × Session :=
  let (reply, next) := s.apply op
  let next := next.settle
  ({ reply
     events := next.hub.journal.drop s.hub.journal.length
     received := gains s next
     fallback := next.recorded.drop s.recorded.length }, next)

end Session

end PaneRelay.Hub
