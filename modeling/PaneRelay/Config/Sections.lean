import PaneRelay.Json.Printer

/-! # Sections of the configuration

The tunables of streaming in three sections, each a record of whole numbers with defaults. A
section's fields, in order, are given once, as a table of keys and ranges; its form, its text and
its reader follow from the table.

* `BatchSection`, `HubSection`, `SupervisorSection`, `StreamConfig`: the values.
* `StreamConfig.shape`: the form of a configuration text.
* `StreamConfig.parse`, `StreamConfig.text`: reads and writes one. -/

namespace PaneRelay.Config

open PaneRelay.Json

/-- **Batching.** Times are in milliseconds. -/
structure BatchSection where
  /-- The flush tick; a pane quiet for this long is flushed. -/
  interval : UInt64 := 16
  /-- The longest tick of a loop with nothing to do. -/
  idleInterval : UInt64 := 100
  /-- The buffer size that forces a flush. -/
  maxBytes : UInt64 := 32768
  /-- The longest a byte may stay buffered. -/
  maxAge : UInt64 := 64
  /-- A lower bound for `maxAge`. -/
  maxAgeFloor : UInt64 := 50
  /-- How many buffers are kept for new panes. -/
  poolCapacity : UInt64 := 64
deriving DecidableEq, Repr, Inhabited

/-- **The hub.** -/
structure HubSection where
  /-- The loopback port; 0 lets the system choose. -/
  port : UInt16 := 0
  /-- The deadline of a write, in milliseconds. -/
  writeTimeout : UInt64 := 2000
  /-- Seconds between pings. -/
  pingInterval : UInt64 := 15
  /-- Seconds of silence after which a consumer is cut off. -/
  pongTimeout : UInt64 := 45
  /-- How many frames may wait for the socket. -/
  sendQueueCapacity : UInt64 := 256
deriving DecidableEq, Repr, Inhabited

/-- **Restarting of loops.** -/
structure SupervisorSection where
  /-- The first pause, in milliseconds. -/
  initialBackoff : UInt64 := 100
  /-- The longest pause, in milliseconds. -/
  maxBackoff : UInt64 := 5000
  /-- How many failures in a row are followed by a restart. -/
  maxRestarts : UInt32 := 5
  /-- Seconds of running after which earlier failures are forgotten. -/
  stableAfter : UInt64 := 30
deriving DecidableEq, Repr, Inhabited

/-- **All tunables of streaming.** -/
structure StreamConfig where
  /-- Batching. -/
  batch : BatchSection := {}
  /-- The hub. -/
  hub : HubSection := {}
  /-- Restarting. -/
  supervisor : SupervisorSection := {}
deriving DecidableEq, Repr, Inhabited

/-! ## Sections as rows of numbers -/

/-- **A section's table:** its name in messages, its fields, and the default of each. -/
structure Table where
  /-- The name. -/
  name : String
  /-- Keys and ranges, in order. -/
  fields : List (String × Width)
  /-- The defaults, in the same order. -/
  defaults : List Nat
deriving DecidableEq, Repr

/-- A row of numbers as a record. -/
def rowValue (row : List Nat) : Value := .record (row.map .word)

/-- The number in a value. -/
def wordOf : Value → Nat
  | .word n => n
  | _ => 0

/-- A record as a row of numbers. -/
def rowOf : Value → List Nat
  | .record vs => vs.map wordOf
  | _ => []

/-- The form of a section. -/
def Table.shape (t : Table) : Shape :=
  .record t.name
    ((t.fields.zip t.defaults).map fun ((key, width), n) => (key, .word width, some (.word n)))

namespace BatchSection

/-- The section as a row. -/
def row (b : BatchSection) : List Nat :=
  [b.interval.toNat, b.idleInterval.toNat, b.maxBytes.toNat, b.maxAge.toNat, b.maxAgeFloor.toNat,
    b.poolCapacity.toNat]

/-- The section in a row. -/
def ofRow : List Nat → BatchSection
  | [a, b, c, d, e, f] => ⟨.ofNat a, .ofNat b, .ofNat c, .ofNat d, .ofNat e, .ofNat f⟩
  | _ => {}

/-- The section's table. -/
def table : Table where
  name := "BatchFileConfig"
  fields := [("interval_ms", .bits64), ("idle_interval_ms", .bits64), ("max_bytes", .size),
    ("max_age_ms", .bits64), ("max_age_floor_ms", .bits64), ("pool_capacity", .size)]
  defaults := ({} : BatchSection).row

end BatchSection

namespace HubSection

/-- The section as a row. -/
def row (h : HubSection) : List Nat :=
  [h.port.toNat, h.writeTimeout.toNat, h.pingInterval.toNat, h.pongTimeout.toNat,
    h.sendQueueCapacity.toNat]

/-- The section in a row. -/
def ofRow : List Nat → HubSection
  | [a, b, c, d, e] => ⟨.ofNat a, .ofNat b, .ofNat c, .ofNat d, .ofNat e⟩
  | _ => {}

/-- The section's table. -/
def table : Table where
  name := "HubFileConfig"
  fields := [("port", .bits16), ("write_timeout_ms", .bits64), ("ping_interval_secs", .bits64),
    ("pong_timeout_secs", .bits64), ("send_queue_capacity", .size)]
  defaults := ({} : HubSection).row

end HubSection

namespace SupervisorSection

/-- The section as a row. -/
def row (s : SupervisorSection) : List Nat :=
  [s.initialBackoff.toNat, s.maxBackoff.toNat, s.maxRestarts.toNat, s.stableAfter.toNat]

/-- The section in a row. -/
def ofRow : List Nat → SupervisorSection
  | [a, b, c, d] => ⟨.ofNat a, .ofNat b, .ofNat c, .ofNat d⟩
  | _ => {}

/-- The section's table. -/
def table : Table where
  name := "SupervisorFileConfig"
  fields := [("initial_backoff_ms", .bits64), ("max_backoff_ms", .bits64), ("max_restarts", .bits32),
    ("stable_after_secs", .bits64)]
  defaults := ({} : SupervisorSection).row

end SupervisorSection

/-! ## The whole -/

namespace StreamConfig

/-- The form of a configuration text: every section, and every field in one, may be missing. -/
def shape : Shape :=
  let part (t : Table) : Shape × Option Value := (t.shape, some (rowValue t.defaults))
  .record "StreamFileConfig"
    [("batch", part BatchSection.table), ("hub", part HubSection.table),
      ("supervisor", part SupervisorSection.table)]

/-- A configuration as a record. -/
def value (c : StreamConfig) : Value :=
  .record [rowValue c.batch.row, rowValue c.hub.row, rowValue c.supervisor.row]

/-- The configuration in a record. -/
def ofValue : Value → StreamConfig
  | .record [b, h, s] => ⟨.ofRow (rowOf b), .ofRow (rowOf h), .ofRow (rowOf s)⟩
  | _ => {}

/-- **Reads a configuration.** -/
def parse (text : String) : Except Fault StreamConfig := do
  let v ← decode shape text
  return ofValue v

/-- The compact text of a configuration. -/
def text (c : StreamConfig) : String := shape.print c.value

end StreamConfig

end PaneRelay.Config
