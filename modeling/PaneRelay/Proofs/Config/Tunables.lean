import PaneRelay.Config.Views

/-! # The tunables of streaming

Each section of the configuration is a record of whole numbers, and each number has a key, a range
and a default. They are listed here once more, every one with the place that it has in the record, so
that what is proved of a reader of sections speaks of keys and not of the columns of a table.

* `Tunable`: a key, a range, a default and a place.
* `Layout`: a kind of section with its tunables, and the laws by which its rows and its table are
  theirs. What is proved of a layout holds of all sections.
* `BatchSection.layout`, `HubSection.layout`, `SupervisorSection.layout`: the three sections.
* `Ordered`: what the floors of the views keep in order, and `ordered`: they do so whatever a
  configuration says. -/

namespace PaneRelay.Config

open PaneRelay.Json (Width)

/-- **A tunable** of a section. -/
structure Tunable (α : Type) where
  /-- Its key. -/
  key : String
  /-- Its range. -/
  width : Width
  /-- Its default. -/
  dflt : Nat
  /-- The number that a section has for it. -/
  get : α → Nat

/-- **A kind of section and its tunables.** A row has one number for each of them, in order. -/
structure Layout (α : Type) where
  /-- The section's table. -/
  table : Table
  /-- A section as a row. -/
  row : α → List Nat
  /-- The section in a row. -/
  ofRow : List Nat → α
  /-- Everything that can be set in it. -/
  tunables : List (Tunable α)
  fields_eq : table.fields = tunables.map fun t => (t.key, t.width)
  defaults_eq : table.defaults = tunables.map (·.dflt)
  apart : (tunables.map (·.key)).Nodup
  dflt_lt : ∀ t ∈ tunables, t.dflt < t.width.bound
  row_eq : ∀ a, row a = tunables.map (·.get a)
  ofRow_row : ∀ a, ofRow (row a) = a
  get_lt : ∀ a, ∀ t ∈ tunables, t.get a < t.width.bound
  /-- A row of numbers in their ranges is a section that has each of them in its place. -/
  get_ofRow : ∀ g : Tunable α → Nat, (∀ t ∈ tunables, g t < t.width.bound) →
    ∀ t ∈ tunables, t.get (ofRow (tunables.map g)) = g t

/-- Batching. -/
def BatchSection.layout : Layout BatchSection where
  table := table
  row := row
  ofRow := ofRow
  tunables :=
    [⟨"interval_ms", .bits64, 16, fun b => b.interval.toNat⟩,
      ⟨"idle_interval_ms", .bits64, 100, fun b => b.idleInterval.toNat⟩,
      ⟨"max_bytes", .size, 32768, fun b => b.maxBytes.toNat⟩,
      ⟨"max_age_ms", .bits64, 64, fun b => b.maxAge.toNat⟩,
      ⟨"max_age_floor_ms", .bits64, 50, fun b => b.maxAgeFloor.toNat⟩,
      ⟨"pool_capacity", .size, 64, fun b => b.poolCapacity.toNat⟩]
  fields_eq := rfl
  defaults_eq := rfl
  apart := by decide
  dflt_lt := by decide
  row_eq _ := rfl
  ofRow_row b := by simp [row, ofRow]
  get_lt b := by
    simp only [List.forall_mem_cons]
    exact ⟨b.interval.toNat_lt, b.idleInterval.toNat_lt, b.maxBytes.toNat_lt, b.maxAge.toNat_lt,
      b.maxAgeFloor.toNat_lt, b.poolCapacity.toNat_lt, List.forall_mem_nil _⟩
  get_ofRow g h := by
    simp only [List.forall_mem_cons, List.map_cons, List.map_nil, ofRow, Width.bound] at h ⊢
    simp [h]

/-- The hub. -/
def HubSection.layout : Layout HubSection where
  table := table
  row := row
  ofRow := ofRow
  tunables :=
    [⟨"port", .bits16, 0, fun h => h.port.toNat⟩,
      ⟨"write_timeout_ms", .bits64, 2000, fun h => h.writeTimeout.toNat⟩,
      ⟨"ping_interval_secs", .bits64, 15, fun h => h.pingInterval.toNat⟩,
      ⟨"pong_timeout_secs", .bits64, 45, fun h => h.pongTimeout.toNat⟩,
      ⟨"send_queue_capacity", .size, 256, fun h => h.sendQueueCapacity.toNat⟩]
  fields_eq := rfl
  defaults_eq := rfl
  apart := by decide
  dflt_lt := by decide
  row_eq _ := rfl
  ofRow_row h := by simp [row, ofRow]
  get_lt h := by
    simp only [List.forall_mem_cons]
    exact ⟨h.port.toNat_lt, h.writeTimeout.toNat_lt, h.pingInterval.toNat_lt,
      h.pongTimeout.toNat_lt, h.sendQueueCapacity.toNat_lt, List.forall_mem_nil _⟩
  get_ofRow g h := by
    simp only [List.forall_mem_cons, List.map_cons, List.map_nil, ofRow, Width.bound] at h ⊢
    simp [h]

/-- Restarting. -/
def SupervisorSection.layout : Layout SupervisorSection where
  table := table
  row := row
  ofRow := ofRow
  tunables :=
    [⟨"initial_backoff_ms", .bits64, 100, fun s => s.initialBackoff.toNat⟩,
      ⟨"max_backoff_ms", .bits64, 5000, fun s => s.maxBackoff.toNat⟩,
      ⟨"max_restarts", .bits32, 5, fun s => s.maxRestarts.toNat⟩,
      ⟨"stable_after_secs", .bits64, 30, fun s => s.stableAfter.toNat⟩]
  fields_eq := rfl
  defaults_eq := rfl
  apart := by decide
  dflt_lt := by decide
  row_eq _ := rfl
  ofRow_row s := by simp [row, ofRow]
  get_lt s := by
    simp only [List.forall_mem_cons]
    exact ⟨s.initialBackoff.toNat_lt, s.maxBackoff.toNat_lt, s.maxRestarts.toNat_lt,
      s.stableAfter.toNat_lt, List.forall_mem_nil _⟩
  get_ofRow g h := by
    simp only [List.forall_mem_cons, List.map_cons, List.map_nil, ofRow, Width.bound] at h ⊢
    simp [h]

namespace Layout

variable {α : Type} (l : Layout α)

/-- **A table's columns are its tunables.** -/
theorem zip_eq : l.table.fields.zip l.table.defaults =
    l.tunables.map fun t => ((t.key, t.width), t.dflt) := by
  rw [l.fields_eq, l.defaults_eq, List.zip_map']

/-- The row of defaults has every default in its place. -/
theorem get_defaults {t : Tunable α} (ht : t ∈ l.tunables) :
    t.get (l.ofRow l.table.defaults) = t.dflt := by
  rw [l.defaults_eq]
  exact l.get_ofRow (·.dflt) l.dflt_lt t ht

/-- A section is what it has for its tunables. -/
theorem eq_of_get {a b : α} (h : ∀ t ∈ l.tunables, t.get a = t.get b) : a = b := by
  rw [← l.ofRow_row a, ← l.ofRow_row b, l.row_eq, l.row_eq, List.map_congr_left h]

end Layout

/-! ### Floors -/

/-- **The order that the floors keep** in what the parts of the program run on. -/
structure Ordered (b : BatchPolicy) (h : HubPolicy) (r : RestartPolicy) : Prop where
  one_le_interval : 1 ≤ b.interval
  interval_le_idle : b.interval ≤ b.idleInterval
  interval_le_age : b.interval ≤ b.maxAge
  one_le_bytes : 1 ≤ b.maxBytes
  ping_le_pong : h.pingInterval ≤ h.pongTimeout
  one_le_queue : 1 ≤ h.sendQueueCapacity
  initial_le_max : r.initialBackoff ≤ r.maxBackoff

/-- **Whatever a configuration says, its parts are in order.** -/
theorem ordered (c : StreamConfig) :
    Ordered (.ofSection c.batch) (.ofSection c.hub) (.ofSection c.supervisor) where
  one_le_interval := Nat.le_max_right _ _
  interval_le_idle := Nat.le_max_right _ _
  interval_le_age := Nat.le_max_right _ _
  one_le_bytes := Nat.le_max_right _ _
  ping_le_pong := Nat.le_max_right _ _
  one_le_queue := Nat.le_max_right _ _
  initial_le_max := Nat.le_max_right _ _

end PaneRelay.Config
