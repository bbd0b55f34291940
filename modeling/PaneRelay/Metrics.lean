/-! # Hub counters

Counters of connections, frames and errors. Every counter is a 64-bit word and wraps.

* `Metrics.opened`, `Metrics.sent`, …: one event each, as a function on the counters. -/

namespace PaneRelay

/-- **The hub's counters.** -/
structure Metrics where
  /-- Consumers ever connected. -/
  connections : UInt64 := 0
  /-- Connections that found another consumer live. -/
  replaced : UInt64 := 0
  /-- Frames written to a socket. -/
  framesSent : UInt64 := 0
  /-- Data bytes in those frames, headers not counted. -/
  bytesSent : UInt64 := 0
  /-- Frames that found the queue full. -/
  framesDropped : UInt64 := 0
  /-- Writes that hit the deadline. -/
  writeTimeouts : UInt64 := 0
  /-- Malformed control messages. -/
  controlErrors : UInt64 := 0
deriving DecidableEq, Repr, Inhabited

namespace Metrics

/-- A consumer connected, perhaps in place of another. -/
def opened (m : Metrics) (replaced : Bool) : Metrics :=
  { m with
    connections := m.connections + 1
    replaced := if replaced then m.replaced + 1 else m.replaced }

/-- A frame with `len` bytes of data was written. -/
def sent (m : Metrics) (len : Nat) : Metrics :=
  { m with framesSent := m.framesSent + 1, bytesSent := m.bytesSent + UInt64.ofNat len }

/-- A frame found the queue full. -/
def dropped (m : Metrics) : Metrics := { m with framesDropped := m.framesDropped + 1 }

/-- A write hit the deadline. -/
def writeTimeout (m : Metrics) : Metrics := { m with writeTimeouts := m.writeTimeouts + 1 }

/-- A control message was malformed. -/
def controlError (m : Metrics) : Metrics := { m with controlErrors := m.controlErrors + 1 }

end Metrics

end PaneRelay
