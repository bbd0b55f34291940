import PaneRelay.Control
import PaneRelay.Frame
import PaneRelay.Hub.Connection
import PaneRelay.Hub.Lifecycle
import PaneRelay.Notice
import PaneRelay.Terminal.Failure

/-! # The hub

At most one consumer is live. A new one takes the place of the old one, and the panes that were
asked for go with a consumer. What happens to connections and subscriptions is told in a journal.

* `Hub`: the state.
* `attach`, `dropConnection`, `update`, `broadcast`: the four things that change who is live, what
  is asked for, and what is queued.
* `receive`: what a consumer says.
* `serve`: the work of all connections at a moment. -/

namespace PaneRelay

/-- **An entry of the hub's journal.** -/
inductive Hub.Event where
  /-- A consumer became live. -/
  | connected (id : Nat)
  /-- A consumer is live no more. -/
  | disconnected (id : Nat) (reason : String)
  /-- Panes that were not asked for before. -/
  | subscribed (panes : List PaneId)
  /-- Panes that were asked for before. -/
  | unsubscribed (panes : List PaneId)
deriving DecidableEq, Repr

open Hub in
/-- **A hub.** -/
structure Hub where
  /-- How consumers are treated. -/
  policy : HubPolicy
  /-- What has happened to the hub itself. -/
  life : Lifecycle := {}
  /-- The live consumer's connection. -/
  live : Option Nat := none
  /-- The panes asked for. -/
  wanted : List PaneId := []
  /-- How many connection numbers were given out. -/
  issued : Nat := 0
  /-- All connections, oldest first. -/
  connections : List Connection := []
  /-- The counters. -/
  metrics : Metrics := {}
  /-- What happened, oldest first. -/
  journal : List Hub.Event := []

namespace Hub

/-- Whether a consumer is live. -/
def isActive (h : Hub) : Bool := h.live.isSome

/-- Whether a pane is asked for. -/
def isWanted (h : Hub) (p : PaneId) : Bool := h.wanted.contains p

/-- The state of the hub as it is reported. -/
def state (h : Hub) : State := h.life.state h.isActive

/-- The connection with a number. -/
def connection? (h : Hub) (id : Nat) : Option Connection :=
  h.connections.find? (fun c => c.id == id)

/-- Changes the connection with a number. -/
def modify (h : Hub) (id : Nat) (f : Connection → Connection) : Hub :=
  { h with connections := h.connections.map fun c => if c.id = id then f c else c }

/-- Adds to the journal. -/
def note (h : Hub) (e : Event) : Hub := { h with journal := h.journal ++ [e] }

/-- Gives out a connection number. -/
def issue (h : Hub) : Nat × Hub := (h.issued + 1, { h with issued := h.issued + 1 })

/-! ## Connections come and go -/

/-- Why a connection ends when another one takes its place. -/
def replacedReason : String := "replaced by a new connection"

/-- **Installs a connection** as the live one, in place of the one before. -/
def attach (h : Hub) (c : Connection) : Hub :=
  let old := h.live
  let h := match old with
    | some id => h.modify id Connection.cancel
    | none => h
  let h := { h with live := some c.id, wanted := [], connections := h.connections ++ [c]
                    metrics := h.metrics.opened old.isSome }
  let h := match old with
    | some id => h.note (.disconnected id replacedReason)
    | none => h
  h.note (.connected c.id)

/-- **Tears a connection down**, if it is the live one. -/
def dropConnection (h : Hub) (id : Nat) (reason : String) : Hub :=
  if h.live = some id then
    { h.modify id Connection.cancel with live := none, wanted := [] }.note (.disconnected id reason)
  else h

/-! ## Panes asked for -/

/-- Adds panes to a list, each that is not in it yet; the ones added are told. -/
def addAll : List PaneId → List PaneId → List PaneId × List PaneId
  | wanted, [] => (wanted, [])
  | wanted, p :: ps =>
    if wanted.contains p then addAll wanted ps
    else
      let (w, new) := addAll (wanted ++ [p]) ps
      (w, p :: new)

/-- Takes panes out of a list, each that is in it; the ones taken out are told. -/
def removeAll : List PaneId → List PaneId → List PaneId × List PaneId
  | wanted, [] => (wanted, [])
  | wanted, p :: ps =>
    if wanted.contains p then
      let (w, gone) := removeAll (wanted.filter (fun q => q != p)) ps
      (w, p :: gone)
    else removeAll wanted ps

/-- **The live consumer asks for panes.** Only changes are told. -/
def subscribe (h : Hub) (id : Nat) (panes : List PaneId) : Hub :=
  if h.live = some id then
    let (wanted, new) := addAll h.wanted panes
    if new.isEmpty then h else { h with wanted }.note (.subscribed new)
  else h

/-- **The live consumer gives panes up.** Only changes are told. -/
def unsubscribe (h : Hub) (id : Nat) (panes : List PaneId) : Hub :=
  if h.live = some id then
    let (wanted, gone) := removeAll h.wanted panes
    if gone.isEmpty then h else { h with wanted }.note (.unsubscribed gone)
  else h

/-! ## Output -/

/-- Why a connection ends when its queue is full. -/
def fullReason : String := "send queue full"

/-- **Output of a pane** for the live consumer, if it asked for the pane. If there is no room in the
queue the frame is lost, and the consumer is cut off. -/
def broadcast (h : Hub) (p : PaneId) (data : ByteArray) : Hub :=
  if data.isEmpty then h
  else
    match h.live with
    | none => h
    | some id =>
      if !h.isWanted p then h
      else
        match h.connection? id with
        | none => h
        | some c =>
          let frame := .frame (Frame.encode p data) data.size
          match c.outbox.put h.policy.sendQueueCapacity frame with
          | some outbox => h.modify id fun c => { c with outbox }
          | none => { h with metrics := h.metrics.dropped }.dropConnection id fullReason

/-! ## What a consumer says -/

/-- **A control message** from a connection. -/
def receive (h : Hub) (id : Nat) (text : String) : Hub :=
  match Control.parse text with
  | .error e =>
    { h with metrics := h.metrics.controlError }.modify id fun c =>
      { c with outbox := c.outbox.offer h.policy.sendQueueCapacity
                 (.text (Notice.ofControlError e).text) }
  | .ok m =>
    match m.request with
    | .subscribe ids => h.subscribe id ids
    | .unsubscribe ids => h.unsubscribe id ids
    | .unknown _ => h

/-! ## The life of the hub -/

/-- Why a connection ends when the hub stops. -/
def stoppingReason : String := "hub stopping"

/-- Why a connection ends when the token of the hub fires. -/
def interruptedReason : String := "pump ended (Cancelled)"

/-- Starts the hub, given what binding the port comes to. -/
def start (h : Hub) (bound : Except String Unit) : Except HubError Unit × Hub :=
  let (r, life) := h.life.start bound
  (r, { h with life })

/-- Lets a consumer in at a moment, unless the hub is about to stop. -/
def accept (h : Hub) (now : Nat) : Hub :=
  if h.life.draining then h
  else
    let (id, h) := h.issue
    h.attach (.fresh h.policy id now)

/-- Begins to stop the hub: the live consumer is shown out. -/
def beginStop (h : Hub) : Hub :=
  let ran := h.life.running
  let h := { h with life := h.life.beginStop }
  match h.live with
  | some id => if ran then h.dropConnection id stoppingReason else h
  | none => h

/-- Ends a stop that has begun: what still runs is interrupted. -/
def finishStop (h : Hub) : Hub := { h with life := h.life.finishStop }

/-- Stops a hub that no consumer is connected to. -/
def stopIdle (h : Hub) : Except HubError Unit × Hub :=
  let h := h.beginStop.finishStop
  (h.life.stopped.getD (.ok ()), h)

/-- Why an address could not be bound. -/
def bindReason (address : String) (e : Terminal.IoError) : String := address ++ ": " ++ e.text

/-- The token of the hub fires: every connection is interrupted. -/
def cancel (h : Hub) : Hub :=
  { h with life := h.life.cancel
           connections := h.connections.map fun c =>
             if c.cancelled then c else c.conclude interruptedReason }

/-! ## The work of the connections -/

/-- All connections at a moment. -/
def serveAll (p : HubPolicy) (now : Nat) :
    List Connection → Metrics → List Connection × Metrics
  | [], metrics => ([], metrics)
  | c :: cs, metrics =>
    let (c, metrics) := c.serve p now metrics
    let (cs, metrics) := serveAll p now cs metrics
    (c :: cs, metrics)

/-- A live connection that is over is torn down, with the reason that its loops know. -/
def reap (h : Hub) : Hub :=
  match h.live with
  | none => h
  | some id =>
    match h.connection? id with
    | none => h
    | some c =>
      if c.writer.isFinished then h.dropConnection id (c.reason.getD "closed") else h

/-- **What a moment brings** to the connections. -/
def serve (h : Hub) (now : Nat) : Hub :=
  let (connections, metrics) := serveAll h.policy now h.connections h.metrics
  { h with connections, metrics }.reap

end Hub

end PaneRelay
