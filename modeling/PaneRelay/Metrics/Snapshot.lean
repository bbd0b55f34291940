import PaneRelay.Json.Printer
import PaneRelay.Metrics

/-! # Counters as JSON

The counters and the hub's age in seconds as a JSON text, in which every member is required.

* `Snapshot.text`, `Snapshot.parse`: writes and reads one. -/

namespace PaneRelay.Metrics

open PaneRelay.Json

/-- **The counters at a moment.** -/
structure Snapshot where
  /-- Seconds since the hub started. -/
  uptime : UInt64
  /-- The counters. -/
  counters : Metrics
deriving DecidableEq, Repr, Inhabited

namespace Snapshot

/-- A required 64-bit member. -/
def count (key : String) : String × Shape × Option Value := (key, .word .bits64, none)

/-- The form of a snapshot. -/
def shape : Shape :=
  .record "MetricsSnapshot"
    [count "uptime_secs",
      ("connections", .record "ConnectionMetrics" [count "total", count "replaced"], none),
      ("frames", .record "FrameMetrics" [count "sent", count "bytes", count "dropped"], none),
      ("errors", .record "ErrorMetrics" [count "write_timeouts", count "control"], none)]

/-- A counter as a value. -/
def word (n : UInt64) : Value := .word n.toNat

/-- A snapshot as a record. -/
def value (s : Snapshot) : Value :=
  let m := s.counters
  .record [word s.uptime, .record [word m.connections, word m.replaced],
    .record [word m.framesSent, word m.bytesSent, word m.framesDropped],
    .record [word m.writeTimeouts, word m.controlErrors]]

/-- The snapshot in a record. -/
def ofValue : Value → Snapshot
  | .record [.word up, .record [.word c, .word r], .record [.word s, .word b, .word d],
      .record [.word w, .word e]] =>
    ⟨.ofNat up, ⟨.ofNat c, .ofNat r, .ofNat s, .ofNat b, .ofNat d, .ofNat w, .ofNat e⟩⟩
  | _ => default

/-- **Reads a snapshot.** -/
def parse (text : String) : Except Fault Snapshot := do
  let v ← decode shape text
  return ofValue v

/-- The compact text of a snapshot. -/
def text (s : Snapshot) : String := shape.print s.value

end Snapshot

end PaneRelay.Metrics
