/-! # The life of a hub

A hub is started once and stopped once. Stopping first drains: no consumer is let in any more while
the last one is shown out. The hub is closed when its listener is gone, by a stop or because the
token it was started with fired.

* `Lifecycle`: what has happened so far.
* `Lifecycle.start`, `beginStop`, `finishStop`, `cancel`: what can happen.
* `Lifecycle.state`: the state as it is reported. -/

namespace PaneRelay.Hub

/-- **Why a call on the hub failed.** -/
inductive HubError where
  /-- It was started before, or stopped. -/
  | alreadyStarted
  /-- The port could not be bound. -/
  | bind (reason : String)
  /-- It was never started. -/
  | notStarted
deriving DecidableEq, Repr

/-- The wording of an error. -/
def HubError.message : HubError → String
  | .alreadyStarted => "stream hub was already started"
  | .bind reason => "failed to bind loopback listener: " ++ reason
  | .notStarted => "stream hub was never started"

/-- **The state of a hub** as it is reported. -/
inductive State where
  /-- No consumer is connected. -/
  | idle
  /-- A consumer is connected. -/
  | connected
  /-- The hub is about to stop. -/
  | draining
  /-- The listener is gone. -/
  | closed
deriving DecidableEq, Repr

/-- **What has happened to a hub.** -/
structure Lifecycle where
  /-- Whether a start was tried. -/
  started : Bool := false
  /-- Whether a start succeeded that no stop has taken down. -/
  running : Bool := false
  /-- Whether a stop has begun. -/
  draining : Bool := false
  /-- Whether the listener is gone. -/
  closed : Bool := false
  /-- What the first stop came to. -/
  stopped : Option (Except HubError Unit) := none
  /-- Whether the token given to `start` has fired. -/
  cancelled : Bool := false

namespace Lifecycle

/-- **Starts**, given what binding the port comes to. A start that was tried is never tried again,
even if binding failed. -/
def start (l : Lifecycle) (bound : Except String Unit) : Except HubError Unit × Lifecycle :=
  if l.stopped.isSome || l.started then (.error .alreadyStarted, l)
  else
    match bound with
    | .error reason => (.error (.bind reason), { l with started := true })
    | .ok () =>
      (.ok (), { l with started := true, running := true, closed := l.closed || l.cancelled })

/-- **Begins to stop.** A hub that does not run is closed at once. -/
def beginStop (l : Lifecycle) : Lifecycle :=
  if l.stopped.isSome || l.draining then l
  else if l.running then { l with running := false, draining := true }
  else { l with closed := true, stopped := some (.error .notStarted) }

/-- Ends a stop that has begun. -/
def finishStop (l : Lifecycle) : Lifecycle :=
  if l.draining && l.stopped.isNone then { l with closed := true, stopped := some (.ok ()) } else l

/-- Whether a stop has begun and not ended. -/
def isStopping (l : Lifecycle) : Bool := l.draining && l.stopped.isNone

/-- The token fires. A hub that was never up has nothing to close. -/
def cancel (l : Lifecycle) : Lifecycle :=
  { l with cancelled := true, closed := l.closed || l.running || l.draining }

/-- **The state**, given whether a consumer is connected. -/
def state (l : Lifecycle) (active : Bool) : State :=
  if l.closed then .closed else if l.draining then .draining
  else if active then .connected else .idle

/-- Whether the hub has an address. -/
def hasAddress (l : Lifecycle) : Bool := l.running && !l.closed

end Lifecycle

/-- The address of a hub that listens on a port. -/
def address (port : String) : String := "ws://127.0.0.1:" ++ port ++ "/ws"

end PaneRelay.Hub
