import PaneRelay.Config.Sections

/-! # What a configuration means

The parts of the program do not run on a section as it is written but on a view of it, in which
durations are milliseconds and floors keep settings in order that would defeat each other.

* `BatchPolicy.ofSection`, `HubPolicy.ofSection`, `RestartPolicy.ofSection`: the floors. -/

namespace PaneRelay

/-- **How output is batched.** Durations are in milliseconds. -/
structure BatchPolicy where
  /-- The flush tick; a pane quiet for this long is due. -/
  interval : Nat
  /-- The longest tick of an idle loop. -/
  idleInterval : Nat
  /-- A buffer of this many bytes is due. -/
  maxBytes : Nat
  /-- A byte buffered for this long makes its pane due. -/
  maxAge : Nat
  /-- How many buffers are kept for new panes. -/
  poolCapacity : Nat
deriving DecidableEq, Repr

/-- The tick is at least a millisecond; neither the idle tick nor the age limit is below it. -/
def BatchPolicy.ofSection (s : Config.BatchSection) : BatchPolicy :=
  let interval := max s.interval.toNat 1
  { interval
    idleInterval := max s.idleInterval.toNat interval
    maxBytes := max s.maxBytes.toNat 1
    maxAge := max (max s.maxAge.toNat s.maxAgeFloor.toNat) interval
    poolCapacity := s.poolCapacity.toNat }

instance : Inhabited BatchPolicy := ⟨.ofSection {}⟩

/-- **How the hub treats its consumer.** Durations are in milliseconds. -/
structure HubPolicy where
  /-- The loopback port. -/
  port : Nat
  /-- The deadline of a write. -/
  writeTimeout : Nat
  /-- The time between pings. -/
  pingInterval : Nat
  /-- The silence after which a consumer is cut off. -/
  pongTimeout : Nat
  /-- How many frames may wait for the socket. -/
  sendQueueCapacity : Nat
deriving DecidableEq, Repr

/-- Every duration and the queue have at least one unit, and silence is not cut off before the next
ping. -/
def HubPolicy.ofSection (s : Config.HubSection) : HubPolicy :=
  let pingInterval := max s.pingInterval.toNat 1 * 1000
  { port := s.port.toNat
    writeTimeout := max s.writeTimeout.toNat 1
    pingInterval
    pongTimeout := max (s.pongTimeout.toNat * 1000) pingInterval
    sendQueueCapacity := max s.sendQueueCapacity.toNat 1 }

instance : Inhabited HubPolicy := ⟨.ofSection {}⟩

/-- **How a failed loop is restarted.** Durations are in milliseconds. -/
structure RestartPolicy where
  /-- The first pause. -/
  initialBackoff : Nat
  /-- The longest pause after it. -/
  maxBackoff : Nat
  /-- How many failures in a row are followed by a restart. -/
  maxRestarts : UInt32
  /-- The length of a run after which earlier failures are forgotten. -/
  stableAfter : Nat
deriving DecidableEq, Repr

/-- The longest pause is not below the first. -/
def RestartPolicy.ofSection (s : Config.SupervisorSection) : RestartPolicy :=
  { initialBackoff := s.initialBackoff.toNat
    maxBackoff := max s.maxBackoff.toNat s.initialBackoff.toNat
    maxRestarts := s.maxRestarts
    stableAfter := s.stableAfter.toNat * 1000 }

instance : Inhabited RestartPolicy := ⟨.ofSection {}⟩

end PaneRelay
