import Mathlib
import PaneRelay.Flags
import PaneRelay.Proofs.Config.Sections

/-! # The highest layer that gives a key wins

Every key of the daemon's configuration has what its flag says, or else what the last variable says
that gives the key, or else what the file says, or else its default. Nothing that is said of another
key counts for it. One flag speaks for two keys: the command line after two dashes is the command of
the panes and their arguments.

* `Key`, `keys`: all keys; a configuration is what it has for them (`eq_of_keys`).
* `given`: what one layer gives for a key; `supplied`: what several give, the last of them first.
* `WellTyped`: a layer each of whose keys can be read. Its sections are tables, since a list names no
  keys.
* `made_foldl`, `ofSetting_eq`, `get_apply`: variables over each other, a configuration out of a
  tree, and flags over a configuration.
* `highest_layer_wins`: all layers. -/

namespace PaneRelay.Config

open PaneRelay.Terminal (Preference)

/-! ### Keys -/

/-- **A key** of the daemon's configuration. -/
structure Key where
  /-- The key of its section. -/
  part : String
  /-- Its key in there. -/
  name : String
  /-- What may stand there. -/
  field : Field
  /-- The content that a configuration has for it, if it has one. -/
  get : DaemonConfig → Option Content
  /-- Its default, if it has one. -/
  dflt : Option Content
  /-- The content that flags give it, if they do. -/
  flag : Flags → Option Content

/-- The keys of a section, of which some have flags. -/
def Part.keys {α : Type} (p : Part α) (of : DaemonConfig → α)
    (flag : String → Flags → Option Content) : List Key :=
  p.slots.map fun s => ⟨p.name, s.key, s.field, fun c => s.get (of c), s.dflt, flag s.key⟩

/-- The flags for the panes. -/
def panesFlag : String → Flags → Option Content
  | "count", f => f.panes.map fun n => .word n.toNat
  | "backend", f => f.backend.map fun b => .choice (Preference.words.idxOf b.word)
  | "command", f => f.command.head?.map .text
  | "args", f => f.command.head?.map fun _ => .texts f.command.tail
  | _, _ => none

/-- The flag for the hub. -/
def hubFlag : String → Flags → Option Content
  | "port", f => f.port.map fun n => .word n.toNat
  | _, _ => none

/-- Batching as part of a configuration. -/
def batchPart : Part BatchSection := BatchSection.layout.part "batch"

/-- The hub as part of a configuration. -/
def hubPart : Part HubSection := HubSection.layout.part "hub"

/-- Restarting as part of a configuration. -/
def supervisorPart : Part SupervisorSection := SupervisorSection.layout.part "supervisor"

/-- **All keys.** -/
def keys : List Key :=
  panesPart.keys (·.panes) panesFlag ++ batchPart.keys (·.stream.batch) (fun _ _ => none) ++
    hubPart.keys (·.stream.hub) hubFlag ++
    supervisorPart.keys (·.stream.supervisor) fun _ _ => none

/-- A section is what its keys have. -/
theorem get_of_keys {α : Type} {p : Part α} {of : DaemonConfig → α}
    {flag : String → Flags → Option Content} {c d : DaemonConfig}
    (h : ∀ k ∈ p.keys of flag, k.get c = k.get d) :
    ∀ s ∈ p.slots, s.get (of c) = s.get (of d) :=
  fun _ hs => h _ (List.mem_map_of_mem hs)

/-- **A configuration is what it has for all keys.** -/
theorem eq_of_keys {c d : DaemonConfig} (h : ∀ k ∈ keys, k.get c = k.get d) : c = d := by
  simp only [keys, List.forall_mem_append] at h
  obtain ⟨⟨⟨hpanes, hbatch⟩, hhub⟩, hsupervisor⟩ := h
  obtain ⟨panes, batch, hub, supervisor⟩ := c
  obtain ⟨panes', batch', hub', supervisor'⟩ := d
  congr
  · exact PanesSection.eq_of_get (get_of_keys hpanes)
  · exact BatchSection.layout.eq_of_slots (get_of_keys hbatch)
  · exact HubSection.layout.eq_of_slots (get_of_keys hhub)
  · exact SupervisorSection.layout.eq_of_slots (get_of_keys hsupervisor)

/-! ### What layers give -/

variable {k : Key} {v u : Setting}

/-- **What a layer gives for a key.** -/
def given (v : Setting) (k : Key) : Option Content := k.field.found (v.at? [k.part, k.name])

/-- **What several layers give for a key:** what the last of them gives that gives it. -/
def supplied (layers : List Setting) (k : Key) : Option Content :=
  layers.reverse.findSome? fun v => given v k

/-- **A layer of the right kinds:** its sections are tables, and what stands at a key can be read. -/
structure WellTyped (v : Setting) : Prop where
  sections : ∀ k ∈ keys, ∀ x, v.child? k.part = some x → x.IsTable
  entries : ∀ k ∈ keys, ∀ x, v.at? [k.part, k.name] = some x → ∃ c, k.field.read x = .ok c

instance : DecidablePred Setting.IsTable
  | .table es => .isTrue ⟨es, rfl⟩
  | .text _ | .char _ | .bool _ | .signed _ | .unsigned _ | .real _ | .list _ => .isFalse nofun

/-- Whether a layer is of the right kinds can be tried out. -/
theorem wellTyped_iff : WellTyped v ↔ ∀ k ∈ keys, (∀ x ∈ v.child? k.part, x.IsTable) ∧
    ∀ x ∈ v.at? [k.part, k.name], (k.field.read x).isOk = true := by
  have hok : ∀ (f : Field) (x : Setting), (f.read x).isOk = true ↔ ∃ c, f.read x = .ok c := by
    intro f x
    cases f.read x <;> simp [Except.isOk, Except.toBool]
  simp only [hok, Option.mem_def]
  exact ⟨fun h k hk => ⟨h.sections k hk, h.entries k hk⟩,
    fun h => ⟨fun k hk => (h k hk).1, fun k hk => (h k hk).2⟩⟩

instance : DecidablePred WellTyped := fun _ => decidable_of_iff _ wellTyped_iff.symm

/-- **One layer over another** gives what the upper one gives, or else what the lower one does. -/
theorem at?_laidOn (hv : v.IsTable) (hd : v.Distinct) (hu : u.IsTable) (hvs : WellTyped v)
    (hus : WellTyped u) (hk : k ∈ keys) : (v.laidOn u).at? [k.part, k.name] =
      (v.at? [k.part, k.name]).or (u.at? [k.part, k.name]) := by
  refine Setting.at?_laidOn hv hd hu (hvs.sections k hk) (hus.sections k hk) fun x hx => ?_
  obtain ⟨c, hc⟩ := hvs.entries k hk x hx
  exact (Field.read_eq_ok hc).2

theorem WellTyped.laidOn (hv : v.IsTable) (hd : v.Distinct) (hu : u.IsTable) (hvs : WellTyped v)
    (hus : WellTyped u) : WellTyped (v.laidOn u) where
  sections k hk := Setting.isTable_child?_laidOn hv hd hu (hvs.sections k hk) (hus.sections k hk)
  entries k hk x hx := by
    rw [at?_laidOn hv hd hu hvs hus hk] at hx
    obtain hx | ⟨-, hx⟩ := Option.or_eq_some_iff.mp hx
    · exact hvs.entries k hk x hx
    · exact hus.entries k hk x hx

theorem given_laidOn (hv : v.IsTable) (hd : v.Distinct) (hu : u.IsTable) (hvs : WellTyped v)
    (hus : WellTyped u) (hk : k ∈ keys) :
    given (v.laidOn u) k = (given v k).or (given u k) := by
  unfold given
  rw [at?_laidOn hv hd hu hvs hus hk]
  cases hx : v.at? [k.part, k.name] with
  | none => rfl
  | some x =>
    obtain ⟨c, hc⟩ := hvs.entries k hk x hx
    simp only [Option.some_or, Field.found, Option.bind_some, hc]
    rfl

theorem supplied_concat (layers : List Setting) :
    supplied (layers ++ [v]) k = (given v k).or (supplied layers k) := by
  rw [supplied, List.reverse_concat, List.findSome?_cons]
  cases given v k <;> rfl

/-- **A tree made of layers**, each laid over those before it. -/
structure Made (layers : List Setting) (t : Setting) : Prop where
  isTable : t.IsTable
  distinct : t.Distinct
  wellTyped : WellTyped t
  given_eq : ∀ k ∈ keys, given t k = supplied layers k

theorem made_nil : Made [] (.table []) where
  isTable := ⟨_, rfl⟩
  distinct := .table .nil (List.forall_mem_nil _)
  wellTyped := ⟨nofun, nofun⟩
  given_eq _ _ := rfl

/-- One more layer. -/
theorem Made.concat {layers : List Setting} {t : Setting} (h : Made layers t) (hv : v.IsTable)
    (hd : v.Distinct) (hvs : WellTyped v) : Made (layers ++ [v]) (v.laidOn t) where
  isTable := Setting.isTable_laidOn hv t
  distinct := hd.laidOn t h.distinct
  wellTyped := .laidOn hv hd h.isTable hvs h.wellTyped
  given_eq k hk := by
    rw [given_laidOn hv hd h.isTable hvs h.wellTyped hk, h.given_eq k hk, supplied_concat]

/-- **All layers**, by induction from the last one. -/
theorem made_foldl {layers : List Setting} (hall : ∀ v ∈ layers, v.IsTable ∧ v.Distinct)
    (hwell : ∀ v ∈ layers, WellTyped v) :
    Made layers (layers.foldl (fun t v => v.laidOn t) (.table [])) := by
  induction layers using List.reverseRecOn with
  | nil => exact made_nil
  | append_singleton layers v ih =>
    rw [List.foldl_concat]
    obtain ⟨hv, hd⟩ := hall v (by simp)
    exact (ih (fun v hv => hall v (by simp [hv])) fun v hv => hwell v (by simp [hv])).concat hv hd
      (hwell v (by simp))

/-! ### A configuration out of a tree -/

/-- A section has what a tree gives, or its defaults. -/
theorem get_of_slots {α : Type} {p : Part α} {of : DaemonConfig → α}
    {flag : String → Flags → Option Content} {c : DaemonConfig}
    (h : ∀ s ∈ p.slots, s.get (of c) = (s.field.found (v.at? [p.name, s.key])).or s.dflt) :
    ∀ k ∈ p.keys of flag, k.get c = (given v k).or k.dflt := by
  rintro k hk
  obtain ⟨s, hs, rfl⟩ := List.mem_map.mp hk
  exact h s hs

/-- A section out of a tree of the right kinds. -/
theorem WellTyped.sectionOf_eq {α : Type} (hv : WellTyped v) (p : Part α) {of : DaemonConfig → α}
    {flag : String → Flags → Option Content} (hkeys : ∀ k ∈ p.keys of flag, k ∈ keys)
    (hslots : p.slots ≠ []) :
    ∃ a, sectionOf v p.name p.read p.dflt = .ok a ∧
      ∀ s ∈ p.slots, s.get a = (s.field.found (v.at? [p.name, s.key])).or s.dflt := by
  obtain ⟨s, hs⟩ := List.exists_mem_of_ne_nil _ hslots
  exact p.sectionOf_eq (hv.sections _ (hkeys _ (List.mem_map_of_mem hs)))
    fun s hs => hv.entries _ (hkeys _ (List.mem_map_of_mem hs))

/-- **A tree of the right kinds makes a configuration** that has, for each key, what the tree gives,
or the default. -/
theorem ofSetting_eq (hv : WellTyped v) :
    ∃ c, DaemonConfig.ofSetting v = .ok c ∧ ∀ k ∈ keys, k.get c = (given v k).or k.dflt := by
  obtain ⟨batch, hbatch, hbatches⟩ := hv.sectionOf_eq batchPart
    (fun k hk => by simp only [keys, List.mem_append]; exact .inl (.inl (.inr hk))) nofun
  obtain ⟨hub, hhub, hhubs⟩ := hv.sectionOf_eq hubPart
    (fun k hk => by simp only [keys, List.mem_append]; exact .inl (.inr hk)) nofun
  obtain ⟨panes, hpanes, hpaness⟩ := hv.sectionOf_eq panesPart
    (fun k hk => by simp only [keys, List.mem_append]; exact .inl (.inl (.inl hk))) nofun
  obtain ⟨supervisor, hsupervisor, hsupervisors⟩ := hv.sectionOf_eq supervisorPart
    (fun k hk => by simp only [keys, List.mem_append]; exact .inr hk) nofun
  refine ⟨{ panes, stream := { batch, hub, supervisor } }, ?_, ?_⟩
  · have hall : DaemonConfig.ofSetting v = (do
        let batch ← sectionOf v batchPart.name batchPart.read batchPart.dflt
        let hub ← sectionOf v hubPart.name hubPart.read hubPart.dflt
        let panes ← sectionOf v panesPart.name panesPart.read panesPart.dflt
        let supervisor ←
          sectionOf v supervisorPart.name supervisorPart.read supervisorPart.dflt
        return { panes, stream := { batch, hub, supervisor } }) := rfl
    rw [hall, hbatch, hhub, hpanes, hsupervisor]
    rfl
  · simp only [keys, List.forall_mem_append]
    exact ⟨⟨⟨get_of_slots hpaness, get_of_slots hbatches⟩, get_of_slots hhubs⟩,
      get_of_slots hsupervisors⟩

/-! ### Flags -/

/-- **Flags over a configuration** count for their keys alone. -/
theorem get_apply (f : Flags) (c : DaemonConfig) :
    ∀ k ∈ keys, k.get (f.apply c) = (k.flag f).or (k.get c) := by
  obtain ⟨config, panes, port, backend, debug, command⟩ := f
  simp only [keys, List.forall_mem_append]
  refine ⟨⟨⟨?_, ?_⟩, ?_⟩, ?_⟩
  · simp only [panesPart, Part.keys, PanesSection.slots, List.map_cons, List.map_nil,
      List.forall_mem_cons, panesFlag]
    cases panes <;> cases backend <;> cases command <;> simp [Flags.apply]
  · rintro k hk
    obtain ⟨s, hs, rfl⟩ := List.mem_map.mp hk
    rfl
  · simp only [hubPart, Layout.part, HubSection.layout, Part.keys, Tunable.slot, List.map_cons,
      List.map_nil, List.forall_mem_cons, hubFlag]
    cases port <;> simp [Flags.apply]
  · rintro k hk
    obtain ⟨s, hs, rfl⟩ := List.mem_map.mp hk
    rfl

/-- **The highest layer that gives a key wins.** -/
theorem highest_layer_wins {toml : Option String} {env : Environment} {file : Setting} (f : Flags)
    (hfile : fileSetting toml = some file) (hwell : WellTyped file)
    (hvars : ∀ v ∈ env.layers, WellTyped v) :
    ∃ c, load toml env = .ok c ∧ ∀ k ∈ keys,
      k.get (f.apply c) = (k.flag f <|> supplied env.layers k <|> given file k <|> k.dflt) := by
  have hvariables := made_foldl (fun v hv => Environment.table_of_layer hv) hvars
  rw [← Environment.setting_eq] at hvariables
  have htable := isTable_of_file hfile
  obtain ⟨c, hc, hget⟩ := ofSetting_eq
    (.laidOn hvariables.isTable hvariables.distinct htable hvariables.wellTyped hwell)
  refine ⟨c, ?_, fun k hk => ?_⟩
  · unfold load
    simp only [hfile, hc]
  · rw [get_apply f c k hk, hget k hk, given_laidOn hvariables.isTable hvariables.distinct htable
      hvariables.wellTyped hwell hk, hvariables.given_eq k hk, Option.or_assoc]
    simp only [Option.orElse_eq_orElse, Option.orElse_eq_or]

/-! ### All four layers at once -/

/-- A file that sets the arguments of the panes and the hub's port. -/
def someFile : String := "panes.args=['x']\nhub.port=7000"

/-- Variables that set the command of the panes and the port again. -/
def someVariables : Environment := [("PANEMUX_HUB__PORT", "7681"), ("PANEMUX_PANES__COMMAND", "top")]

/-- The setting of the file. -/
def someSetting : Setting :=
  .table [("panes", .table [("args", .list [.text "x"])]), ("hub", .table [("port", .signed 7000)])]

theorem fileSetting_someFile : fileSetting (some someFile) = some someSetting := by cbv

theorem layers_someVariables : Environment.layers someVariables =
    [.table [("hub", .table [("port", .unsigned 7681)])],
      .table [("panes", .table [("command", .text "top")])]] := by cbv

theorem highest_layer_wins_four : ∃ c, load (some someFile) someVariables = .ok c ∧ ∀ k ∈ keys,
    k.get (Flags.apply { panes := some 3 } c) = (k.flag { panes := some 3 } <|>
      supplied (Environment.layers someVariables) k <|> given someSetting k <|> k.dflt) :=
  highest_layer_wins { panes := some 3 } fileSetting_someFile (by decide) (by
    rw [layers_someVariables]
    decide)

end PaneRelay.Config
