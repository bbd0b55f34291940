import PaneRelay.Metrics.Snapshot
import PaneRelay.Proofs.Config.Tunables
import PaneRelay.Proofs.Json.Printing

/-! # Configurations and counters as texts

A configuration is read back from its compact text, and so are the counters. A configuration text may
also say less: it may leave out any section and any tunable of a section, which then has its default,
and it may have members that no section knows.

* `Says`: what an object says about a key, which is one value or nothing.
* `Layout.Lists`: the numbers that an object lists for the tunables of a section.
* `Listing`: the numbers that a text lists; `Listing.Holds`: a configuration that has these, and
  defaults for the rest.
* `texts_are_read`: both kinds of texts. -/

namespace PaneRelay.Config

open PaneRelay.Json

variable {α : Type}

/-- **What an object says about a key:** one value, which stands for something, or nothing. -/
def Says (ms : List (String × Datum)) (key : String) (Stands : α → Datum → Prop) :
    Option α → Prop
  | none => valuesOf key ms = []
  | some a => ∃ d, valuesOf key ms = [d] ∧ Stands a d

/-! ### Sections -/

namespace Layout

variable (l : Layout α)

/-- **An object lists some numbers** for the tunables of a section, each in its range. -/
def Lists (found : String → Option Nat) (d : Datum) : Prop :=
  ∃ ms, d = .object ms ∧
    ∀ t ∈ l.tunables, Says ms t.key (fun n d => d.WritesWord n ∧ n < t.width.bound) (found t.key)

/-- The number for a tunable out of those that were found, if a section was. -/
def settled (found : Option (String → Option Nat)) (t : Tunable α) : Nat :=
  (found.bind fun f => f t.key).getD t.dflt

/-- **A section has what was found**, and defaults for the rest. -/
def Holds (a : α) (found : Option (String → Option Nat)) : Prop :=
  ∀ t ∈ l.tunables, t.get a = settled found t

/-- The fields of a section's form. -/
def parts (ts : List (Tunable α)) : List (String × Shape × Option Value) :=
  ts.map fun t => (t.key, .word t.width, some (.word t.dflt))

theorem shape_eq : l.table.shape = .record l.table.name (parts l.tunables) := by
  rw [Table.shape, l.zip_eq, List.map_map]
  rfl

/-- A row as a record, out of the numbers for the tunables. -/
theorem rowValue_map (g : Tunable α → Nat) :
    rowValue (l.tunables.map g) = .record (l.tunables.map fun t => .word (g t)) := by
  rw [rowValue, List.map_map]
  rfl

theorem fitsAll_parts {ts : List (Tunable α)} {g : Tunable α → Nat}
    (h : ∀ t ∈ ts, g t < t.width.bound) :
    fitsAll (parts ts) (ts.map fun t => .word (g t)) = true := by
  induction ts with
  | nil => rfl
  | cons t ts ih =>
    obtain ⟨ht, hts⟩ := List.forall_mem_cons.mp h
    simp only [parts, List.map_cons, fitsAll, Bool.and_eq_true]
    exact ⟨decide_eq_true ht, ih hts⟩

/-- **Every section fits its form.** -/
theorem fits_row (a : α) : fits l.table.shape (rowValue (l.row a)) = true := by
  rw [l.shape_eq, l.row_eq, l.rowValue_map, fits_record]
  exact fitsAll_parts (l.get_lt a)

variable {l} {ms : List (String × Datum)} {key : String} {found : String → Option Nat} {d : Datum}
  {found? : Option (String → Option Nat)}

theorem settled_lt (h : ∀ f, found? = some f → ∃ d, l.Lists f d) :
    ∀ t ∈ l.tunables, settled found? t < t.width.bound := by
  intro t ht
  cases found? with
  | none => exact l.dflt_lt t ht
  | some f =>
    obtain ⟨_, _, -, hsays⟩ := h f rfl
    have hsays := hsays t ht
    show (f t.key).getD t.dflt < _
    cases hf : f t.key with
    | none => exact l.dflt_lt t ht
    | some n =>
      rw [hf] at hsays
      obtain ⟨_, -, -, hn⟩ := hsays
      exact hn

/-- A section that is listed is read with its defaults filled in. -/
theorem Lists.reading (h : l.Lists found d) :
    l.table.shape.reading d = some (rowValue (l.tunables.map (settled found))) := by
  obtain ⟨ms, rfl, hsays⟩ := h
  rw [l.shape_eq, l.rowValue_map, Shape.reading]
  refine congrArg (Option.map Value.record) (membersReading_eq ?_)
  rw [parts, List.forall₂_map_left_iff, List.forall₂_map_right_iff, List.forall₂_same]
  intro t ht
  have hsays := hsays t ht
  dsimp only [settled, Option.bind_some]
  cases hf : found t.key with
  | none =>
    rw [hf] at hsays
    rw [show valuesOf t.key ms = [] from hsays]
    rfl
  | some n =>
    rw [hf] at hsays
    obtain ⟨d, hd, hwrites, hn⟩ := hsays
    rw [hd, fieldReading, Shape.reading, hwrites.word? hn]
    rfl

/-- **What an object says of a section** is read, be it there or not. -/
theorem fieldReading_eq (h : Says ms key l.Lists found?) :
    fieldReading (some (rowValue l.table.defaults)) l.table.shape.reading (valuesOf key ms) =
      some (rowValue (l.tunables.map (settled found?))) := by
  cases found? with
  | none =>
    rw [show valuesOf key ms = [] from h, l.defaults_eq]
    rfl
  | some f =>
    obtain ⟨d, hd, hlists⟩ := h
    rw [hd, fieldReading, hlists.reading]

/-- The section that is read has what was found. -/
theorem holds_ofRow (h : Says ms key l.Lists found?) :
    l.Holds (l.ofRow (l.tunables.map (settled found?))) found? := by
  refine l.get_ofRow (settled found?) (settled_lt ?_)
  rintro f rfl
  obtain ⟨d, -, hd⟩ := h
  exact ⟨d, hd⟩

end Layout

@[simp] theorem rowOf_rowValue (row : List Nat) : rowOf (rowValue row) = row := by
  rw [rowValue, rowOf, List.map_map]
  exact List.map_id row

/-! ### Configurations -/

/-- **What a text lists:** for each section that it has, the numbers that it has for the keys. -/
structure Listing where
  /-- Batching. -/
  batch : Option (String → Option Nat) := none
  /-- The hub. -/
  hub : Option (String → Option Nat) := none
  /-- Restarting. -/
  supervisor : Option (String → Option Nat) := none

/-- **An object with these sections.** Its members may stand in any order, with others between. -/
structure Listing.In (f : Listing) (ms : List (String × Datum)) : Prop where
  batch : Says ms "batch" BatchSection.layout.Lists f.batch
  hub : Says ms "hub" HubSection.layout.Lists f.hub
  supervisor : Says ms "supervisor" SupervisorSection.layout.Lists f.supervisor

/-- **A configuration has what a text lists**, and defaults for the rest. -/
structure Listing.Holds (f : Listing) (c : StreamConfig) : Prop where
  batch : BatchSection.layout.Holds c.batch f.batch
  hub : HubSection.layout.Holds c.hub f.hub
  supervisor : SupervisorSection.layout.Holds c.supervisor f.supervisor

namespace StreamConfig

theorem keyed_shape : shape.keyed = true := by decide

theorem ofValue_value (c : StreamConfig) : ofValue c.value = c := by
  simp only [value, ofValue, rowOf_rowValue]
  exact congr (congr (congrArg mk (BatchSection.layout.ofRow_row _))
    (HubSection.layout.ofRow_row _)) (SupervisorSection.layout.ofRow_row _)

theorem fits_value (c : StreamConfig) : fits shape c.value = true := by
  rw [value, shape, fits_record]
  simp only [fitsAll, Bool.and_eq_true]
  exact ⟨BatchSection.layout.fits_row _, HubSection.layout.fits_row _,
    SupervisorSection.layout.fits_row _, trivial⟩

/-- **A configuration is read back from its text.** -/
theorem parse_text (c : StreamConfig) : parse c.text = .ok c := by
  rw [parse, text, decode_print keyed_shape (fits_value c)]
  exact congrArg Except.ok (ofValue_value c)

/-- **A text that lists some settings is read** as a configuration that has them. -/
theorem parse_listed {f : Listing} {ms : List (String × Datum)} {text : String}
    (hwritten : (Datum.object ms).WrittenAs text) (hin : f.In ms) :
    ∃ c, parse text = .ok c ∧ f.Holds c := by
  have hread := decode_eq keyed_shape hwritten
  have hmeans : shape.reading (.object ms) = some (.record
      [rowValue (BatchSection.layout.tunables.map (Layout.settled f.batch)),
        rowValue (HubSection.layout.tunables.map (Layout.settled f.hub)),
        rowValue (SupervisorSection.layout.tunables.map (Layout.settled f.supervisor))]) := by
    refine congrArg (Option.map Value.record) (membersReading_eq ?_)
    exact .cons (Layout.fieldReading_eq hin.batch) (.cons (Layout.fieldReading_eq hin.hub)
      (.cons (Layout.fieldReading_eq hin.supervisor) .nil))
  rw [hmeans] at hread
  unfold parse
  cases hd : decode shape text with
  | error e => rw [hd] at hread; cases hread
  | ok v =>
    rw [hd] at hread
    cases hread
    refine ⟨_, rfl, ?_⟩
    constructor <;> simp only [ofValue, rowOf_rowValue]
    · exact Layout.holds_ofRow hin.batch
    · exact Layout.holds_ofRow hin.hub
    · exact Layout.holds_ofRow hin.supervisor

end StreamConfig

end PaneRelay.Config

/-! ### Counters -/

namespace PaneRelay.Metrics.Snapshot

open PaneRelay.Json

theorem ofValue_value (s : Snapshot) : ofValue s.value = s := by
  simp [value, ofValue, word]

theorem fits_word (n : UInt64) : fits (.word .bits64) (word n) = true :=
  decide_eq_true n.toNat_lt

theorem fits_value (s : Snapshot) : fits shape s.value = true := by
  simp [value, shape, count, fits_word, fits_record, fitsAll]

/-- **Counters are read back from their text.** -/
theorem parse_text (s : Snapshot) : parse s.text = .ok s := by
  rw [parse, text, decode_print (by decide) (fits_value s)]
  exact congrArg Except.ok (ofValue_value s)

end PaneRelay.Metrics.Snapshot

/-! ### Both -/

namespace PaneRelay.Config

open PaneRelay.Json

/-- **Texts are read for what they say.** Compact texts of configurations and of counters are read
back. An object that lists some settings is read as a configuration that has these and the defaults
of all others, whatever else it has; and what the program makes of it is in order. -/
theorem texts_are_read :
    (∀ c : StreamConfig, StreamConfig.parse c.text = .ok c) ∧
      (∀ s : Metrics.Snapshot, Metrics.Snapshot.parse s.text = .ok s) ∧
      ∀ (f : Listing) (ms : List (String × Datum)) (text : String),
        (Datum.object ms).WrittenAs text → f.In ms →
          ∃ c, StreamConfig.parse text = .ok c ∧ f.Holds c ∧
            Ordered (.ofSection c.batch) (.ofSection c.hub) (.ofSection c.supervisor) := by
  refine ⟨StreamConfig.parse_text, Metrics.Snapshot.parse_text, ?_⟩
  intro f ms text hwritten hin
  obtain ⟨c, hc, hholds⟩ := StreamConfig.parse_listed hwritten hin
  exact ⟨c, hc, hholds, ordered c⟩

/-! ### A text with settings at their limits -/

/-- Two sections that are out of order, with members that no section knows. -/
def sparse : List (String × Datum) :=
  [("x", .null),
    ("hub", .object [("port", .number ⟨false, "65535".toList, none, none⟩), ("x", .bool true)]),
    ("batch", .object [("max_age_ms", .number ⟨false, "0".toList, none, none⟩),
      ("interval_ms", .number ⟨false, "18446744073709551615".toList, none, none⟩)])]

/-- The sections as a text, with a blank in it. -/
def sparseText : String :=
  "\x7b\"x\": null,\"hub\":\x7b\"port\":65535,\"x\":true\x7d,\"batch\":" ++
    "\x7b\"max_age_ms\":0,\"interval_ms\":18446744073709551615\x7d\x7d"

/-- What the text lists. -/
def sparseListing : Listing where
  batch := some fun k => [("interval_ms", 18446744073709551615), ("max_age_ms", 0)].lookup k
  hub := some fun k => [("port", 65535)].lookup k

theorem sparse_writtenAs : (Datum.object sparse).WrittenAs sparseText := by
  have hport : ∀ r, Figure ⟨false, "65535".toList, none, none⟩
      ('6' :: '5' :: '5' :: '3' :: '5' :: r) r := fun r =>
    .plain rfl ⟨_, _, whole_toDigits 65535 r, .absent, .absent⟩
  have hage : ∀ r, Figure ⟨false, "0".toList, none, none⟩ ('0' :: r) r := fun r =>
    .plain rfl ⟨_, _, whole_toDigits 0 r, .absent, .absent⟩
  have hinterval : ∀ r, Figure ⟨false, "18446744073709551615".toList, none, none⟩
      ("18446744073709551615".toList ++ r) r := fun r =>
    .plain rfl ⟨_, _, whole_toDigits 18446744073709551615 r, .absent, .absent⟩
  unfold sparseText
  refine ⟨[], ?_, .done⟩
  simp only [String.toList_append, String.reduceToList, List.cons_append, List.nil_append]
  refine .object .done (.member rfl (quoted_quoteChars "x" _) .done
    (.null (.more (by decide) .done)) ?_)
  refine .member .done (quoted_quoteChars "hub" _) .done (.object .done
    (.member rfl (quoted_quoteChars "port" _) .done (.number .done (hport _))
      (.member .done (quoted_quoteChars "x" _) .done (.yes .done) (.endMembers .done)))) ?_
  exact .member .done (quoted_quoteChars "batch" _) .done (.object .done
    (.member rfl (quoted_quoteChars "max_age_ms" _) .done (.number .done (hage _))
      (.member .done (quoted_quoteChars "interval_ms" _) .done (.number .done (hinterval _))
        (.endMembers .done)))) (.endMembers .done)

theorem sparse_in : sparseListing.In sparse where
  batch := by
    refine ⟨_, rfl, _, rfl, ?_⟩
    simp only [BatchSection.layout, List.forall_mem_cons]
    exact ⟨⟨_, rfl, ⟨_, rfl, rfl⟩, by decide⟩, rfl, rfl,
      ⟨_, rfl, ⟨_, rfl, rfl⟩, by decide⟩, rfl, rfl, List.forall_mem_nil _⟩
  hub := by
    refine ⟨_, rfl, _, rfl, ?_⟩
    simp only [HubSection.layout, List.forall_mem_cons]
    exact ⟨⟨_, rfl, ⟨_, rfl, rfl⟩, by decide⟩, rfl, rfl, rfl, rfl, List.forall_mem_nil _⟩
  supervisor := rfl

/-- The text is read, and the floors put in order what it says. -/
theorem texts_are_read_sparse : (Datum.object sparse).WrittenAs sparseText ∧
    sparseListing.In sparse ∧ ∃ c, StreamConfig.parse sparseText = .ok c ∧ sparseListing.Holds c ∧
      Ordered (.ofSection c.batch) (.ofSection c.hub) (.ofSection c.supervisor) :=
  ⟨sparse_writtenAs, sparse_in, texts_are_read.2.2 _ _ _ sparse_writtenAs sparse_in⟩

end PaneRelay.Config
