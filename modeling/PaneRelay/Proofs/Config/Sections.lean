import Mathlib.Data.List.Perm.Basic
import PaneRelay.Proofs.Config.Layers
import PaneRelay.Proofs.Config.Tunables

/-! # Sections are read slot by slot

A section of the daemon's configuration is read out of a table. Each of its slots takes what the
table has at one key, or its default, whatever stands at the other keys.

* `Field.Allows`: the contents that a field may have.
* `readKeys_eq`, `lookup_contents`: what is read, and what is found of it at a key.
* `Slot`: a key of a section, what may stand there, its default and its place.
* `Part`: a section that is read slot by slot, and where it stands; `Part.sectionOf_eq` reads it out
  of a tree.
* `panesPart`, `Layout.part`: all sections. -/

namespace PaneRelay.Config

open PaneRelay.Terminal (Preference)

variable {α : Type} {es : List (String × Setting)} {fs : List (String × Field)}

/-! ### Fields -/

/-- **What a field may contain.** -/
def Field.Allows : Field → Content → Prop
  | .word w, c => ∃ n < w.bound, c = .word n
  | .text _, c => ∃ s, c = .text s
  | .texts, c => ∃ l, c = .texts l
  | .choice _ words, c => ∃ i < words.length, c = .choice i

/-- The content of a field, if there is a setting for it. -/
def Field.found (f : Field) (v? : Option Setting) : Option Content :=
  v?.bind fun v => (f.read v).toOption

theorem map_eq_ok {ε β : Type} {x : Except ε α} {g : α → β} {b : β} :
    x.map g = .ok b ↔ ∃ a, x = .ok a ∧ g a = b := by
  cases x <;> simp [Except.map]

theorem wordIn_eq_ok {w : Json.Width} {v : Setting} {n : Int} {c : Content}
    (h : wordIn w v n = .ok c) : ∃ m < w.bound, c = .word m := by
  unfold wordIn at h
  split at h
  · cases h
    exact ⟨n.toNat, by omega, rfl⟩
  · cases h

theorem indexOf_eq_ok {words : List String} {word : String} {c : Content}
    (h : indexOf words word = .ok c) : ∃ i < words.length, c = .choice i := by
  unfold indexOf at h
  split at h
  · next i hi =>
    cases h
    exact ⟨i, (List.idxOf?_eq_some_iff.mp hi).1, rfl⟩
  · cases h

/-- **What a field is read as**, and that it is not read off a table. -/
theorem Field.read_eq_ok {f : Field} {v : Setting} {c : Content} (h : f.read v = .ok c) :
    f.Allows c ∧ ¬ v.IsTable := by
  cases f with
  | word w =>
    unfold Field.read at h
    dsimp only at h
    split at h
    · exact ⟨wordIn_eq_ok h, nofun⟩
    · exact ⟨wordIn_eq_ok h, nofun⟩
    · cases h
  | text what =>
    obtain ⟨s, hs, rfl⟩ := map_eq_ok.mp h
    unfold textOf at hs
    split at hs
    · exact ⟨⟨s, rfl⟩, nofun⟩
    · exact ⟨⟨s, rfl⟩, nofun⟩
    · cases hs
  | texts =>
    unfold Field.read at h
    dsimp only at h
    split at h
    · obtain ⟨l, -, rfl⟩ := map_eq_ok.mp h
      exact ⟨⟨l, rfl⟩, nofun⟩
    · cases h
  | choice name words =>
    unfold Field.read choiceOf at h
    dsimp only at h
    split at h
    · exact ⟨indexOf_eq_ok h, nofun⟩
    · -- a table stands for a word only to be refused
      split at h
      · cases h
      · split at h <;> cases h
    · cases h

theorem Field.allows_of_found {f : Field} {v? : Option Setting} {c : Content}
    (h : f.found v? = some c) : f.Allows c := by
  obtain ⟨v, -, h⟩ := Option.bind_eq_some_iff.mp h
  cases hread : f.read v with
  | error e => rw [hread] at h; cases h
  | ok c' =>
    rw [hread] at h
    cases h
    exact (Field.read_eq_ok hread).1

/-! ### Tables -/

/-- What a table has for some fields. -/
def contents (es : List (String × Setting)) (fs : List (String × Field)) :
    List (String × Content) :=
  fs.filterMap fun f => (f.2.found (es.lookup f.1)).map fun c => (f.1, c)

/-- **Fields all of whose settings can be read** are read. -/
theorem readKeys_eq
    (h : ∀ f ∈ fs, ∀ v, es.lookup f.1 = some v → ∃ c, f.2.read v = .ok c) :
    readKeys es fs = .ok (contents es fs) := by
  induction fs with
  | nil => rfl
  | cons f fs ih =>
    obtain ⟨k, f⟩ := f
    obtain ⟨hf, hfs⟩ := List.forall_mem_cons.mp h
    have ih := ih hfs
    rw [readKeys, contents, List.filterMap_cons]
    cases hv : es.lookup k with
    | none => exact ih
    | some v =>
      obtain ⟨c, hc⟩ := hf v hv
      simp only [Field.found, Option.bind_some, hc, ih]
      rfl

theorem contents_keys (es : List (String × Setting)) (fs : List (String × Field)) :
    ((contents es fs).map (·.1)).Sublist (fs.map (·.1)) := by
  induction fs with
  | nil => exact .refl _
  | cons f fs ih =>
    rw [contents, List.filterMap_cons]
    cases f.2.found (es.lookup f.1) with
    | none => exact ih.cons _
    | some c => exact ih.cons_cons _

/-- **What is found at a key** of what was read, if the keys differ. -/
theorem lookup_contents (hkeys : (fs.map (·.1)).Nodup) {f : String × Field} (hf : f ∈ fs) :
    (contents es fs).lookup f.1 = f.2.found (es.lookup f.1) := by
  induction fs with
  | nil => cases hf
  | cons g fs ih =>
    obtain ⟨hne, hkeys⟩ := List.nodup_cons.mp hkeys
    have hrest : g.1 ∉ (contents es fs).map (·.1) := fun h => hne ((contents_keys es fs).subset h)
    rw [contents, List.filterMap_cons]
    obtain rfl | hf := List.mem_cons.mp hf
    · cases f.2.found (es.lookup f.1) with
      | none => exact lookup_eq_none_of_not_mem hrest
      | some c => exact List.lookup_cons_self
    · have hfg : f.1 ≠ g.1 := fun heq => hne (List.mem_map.mpr ⟨f, hf, heq⟩)
      cases g.2.found (es.lookup g.1) with
      | none => exact ih hkeys hf
      | some c =>
        show List.lookup f.1 ((g.1, c) :: contents es fs) = _
        rw [lookup_cons_if, if_neg hfg]
        exact ih hkeys hf

theorem allows_of_mem_contents {e : String × Content} (h : e ∈ contents es fs) :
    ∃ f ∈ fs, f.1 = e.1 ∧ f.2.Allows e.2 := by
  obtain ⟨f, hf, he⟩ := List.mem_filterMap.mp h
  obtain ⟨c, hc, rfl⟩ := Option.map_eq_some_iff.mp he
  exact ⟨f, hf, rfl, Field.allows_of_found hc⟩

theorem byKey_perm (fs : List (String × Field)) : (byKey fs).Perm fs := List.mergeSort_perm _ _

/-- **A record out of a table** whose settings can all be read. -/
theorem extract_eq (name : String) (hkeys : (fs.map (·.1)).Nodup)
    (h : ∀ f ∈ fs, ∀ v, es.lookup f.1 = some v → ∃ c, f.2.read v = .ok c) :
    ∃ cs, extract name fs (.table es) = .ok cs ∧ (cs.map (·.1)).Nodup ∧
      (∀ e ∈ cs, ∃ f ∈ fs, f.1 = e.1 ∧ f.2.Allows e.2) ∧
      ∀ f ∈ fs, cs.lookup f.1 = f.2.found (es.lookup f.1) := by
  have hperm := byKey_perm fs
  have hkeys' : ((byKey fs).map (·.1)).Nodup := (hperm.map _).nodup_iff.mpr hkeys
  refine ⟨contents es (byKey fs), readKeys_eq fun f hf => h f (hperm.mem_iff.mp hf),
    (contents_keys es _).nodup hkeys', fun e he => ?_, fun f hf => ?_⟩
  · obtain ⟨f, hf, hallows⟩ := allows_of_mem_contents he
    exact ⟨f, hperm.mem_iff.mp hf, hallows⟩
  · exact lookup_contents hkeys' (hperm.mem_iff.mpr hf)

/-! ### Slots -/

/-- **A slot** of a section. -/
structure Slot (α : Type) where
  /-- Its key. -/
  key : String
  /-- What may stand there. -/
  field : Field
  /-- The content that a section has for it, if it has one. -/
  get : α → Option Content
  /-- Its default, if it has one. -/
  dflt : Option Content

/-- **A section and where it stands.** It is read slot by slot. -/
structure Part (α : Type) where
  /-- Its key. -/
  name : String
  /-- All that can be set in it. -/
  slots : List (Slot α)
  /-- Its reader. -/
  read : Setting → Except Rejection α
  /-- What it is if nothing is set. -/
  dflt : α
  get_dflt : ∀ s ∈ slots, s.get dflt = s.dflt
  /-- Every slot has what stands at its key, or its default. -/
  read_table : ∀ es : List (String × Setting),
    (∀ s ∈ slots, ∀ v, es.lookup s.key = some v → ∃ c, s.field.read v = .ok c) →
      ∃ a, read (.table es) = .ok a ∧
        ∀ s ∈ slots, s.get a = (s.field.found (es.lookup s.key)).or s.dflt

/-- **A section is read out of a tree**, be it there or not. -/
theorem Part.sectionOf_eq (p : Part α) {v : Setting}
    (htable : ∀ x, v.child? p.name = some x → x.IsTable)
    (hread : ∀ s ∈ p.slots, ∀ x, v.at? [p.name, s.key] = some x → ∃ c, s.field.read x = .ok c) :
    ∃ a, sectionOf v p.name p.read p.dflt = .ok a ∧
      ∀ s ∈ p.slots, s.get a = (s.field.found (v.at? [p.name, s.key])).or s.dflt := by
  simp only [Setting.at?_pair] at hread ⊢
  unfold sectionOf
  cases hx : v.child? p.name with
  | none => exact ⟨p.dflt, rfl, p.get_dflt⟩
  | some x =>
    obtain ⟨es, rfl⟩ := htable x hx
    rw [hx] at hread
    obtain ⟨a, ha, hslots⟩ := p.read_table es hread
    exact ⟨a, by simp only [ha]; rfl, hslots⟩

/-! ### Sections of whole numbers -/

/-- A tunable as a slot. -/
def Tunable.slot (t : Tunable α) : Slot α :=
  ⟨t.key, .word t.width, fun a => some (.word (t.get a)), some (.word t.dflt)⟩

/-- The number that was found at a key, or else a default. -/
def wordAt (cs : List (String × Content)) (k : String) (dflt : Nat) : Nat :=
  match cs.lookup k with
  | some (.word m) => m
  | _ => dflt

/-- A row of numbers takes each of them from its key. -/
theorem Layout.rowOfSetting_eq (l : Layout α) (es : List (String × Setting))
    (h : ∀ t ∈ l.tunables, ∀ v, es.lookup t.key = some v → ∃ c, t.slot.field.read v = .ok c) :
    ∃ g : Tunable α → Nat, l.table.rowOfSetting (.table es) = .ok (l.tunables.map g) ∧
      ∀ t ∈ l.tunables, g t < t.width.bound ∧
        some (.word (g t)) = (t.slot.field.found (es.lookup t.key)).or t.slot.dflt := by
  have hfields : (l.table.fields.map fun f => (f.1, Field.word f.2)) =
      l.tunables.map fun t => (t.key, Field.word t.width) := by
    rw [l.fields_eq, List.map_map]
    rfl
  have hkeys : ((l.tunables.map fun t => (t.key, Field.word t.width)).map (·.1)).Nodup := by
    rw [List.map_map]
    exact l.apart
  have hread : ∀ f ∈ l.tunables.map fun t => (t.key, Field.word t.width),
      ∀ v, es.lookup f.1 = some v → ∃ c, f.2.read v = .ok c := by
    rintro f hf
    obtain ⟨t, ht, rfl⟩ := List.mem_map.mp hf
    exact h t ht
  obtain ⟨cs, hcs, -, -, hlookup⟩ := extract_eq l.table.name hkeys hread
  refine ⟨fun t => wordAt cs t.key t.dflt, ?_, fun t ht => ?_⟩
  · unfold Table.rowOfSetting
    change extract _ (l.table.fields.map fun f => (f.1, Field.word f.2)) _ >>= _ = _
    rw [hfields, hcs, l.zip_eq]
    simp only [bind, Except.bind, pure, Except.pure, List.map_map]
    rfl
  · have hfound : cs.lookup t.key = (Field.word t.width).found (es.lookup t.key) :=
      hlookup _ (List.mem_map_of_mem ht)
    unfold wordAt
    dsimp only [Tunable.slot]
    rw [← hfound]
    cases hc : cs.lookup t.key with
    | none => exact ⟨l.dflt_lt t ht, rfl⟩
    | some c =>
      obtain ⟨n, hn, rfl⟩ := Field.allows_of_found (hfound.symm.trans hc)
      exact ⟨hn, rfl⟩

/-- **A section of whole numbers** as part of a configuration. -/
def Layout.part (l : Layout α) (name : String) : Part α where
  name := name
  slots := l.tunables.map (·.slot)
  read u := l.ofRow <$> l.table.rowOfSetting u
  dflt := l.ofRow l.table.defaults
  get_dflt s hs := by
    obtain ⟨t, ht, rfl⟩ := List.mem_map.mp hs
    exact congrArg (fun n => some (Content.word n)) (l.get_defaults ht)
  read_table es h := by
    obtain ⟨g, hg, hrow⟩ := l.rowOfSetting_eq es fun t ht => h t.slot (List.mem_map_of_mem ht)
    refine ⟨_, by rw [hg]; rfl, fun s hs => ?_⟩
    obtain ⟨t, ht, rfl⟩ := List.mem_map.mp hs
    have hget := l.get_ofRow g (fun t ht => (hrow t ht).1) t ht
    exact (congrArg (fun n => some (Content.word n)) hget).trans (hrow t ht).2

theorem Layout.eq_of_slots (l : Layout α) {name : String} {a b : α}
    (h : ∀ s ∈ (l.part name).slots, s.get a = s.get b) : a = b := by
  refine l.eq_of_get fun t ht => ?_
  simpa [Tunable.slot] using h t.slot (List.mem_map_of_mem ht)

/-! ### The panes -/

namespace PanesSection

/-- The slots of the panes. -/
def slots : List (Slot PanesSection) :=
  [⟨"count", .word .size, fun p => some (.word p.count.toNat), some (.word 1)⟩,
    ⟨"command", .text "a string", fun p => p.command.map .text, none⟩,
    ⟨"args", .texts, fun p => some (.texts p.args), some (.texts [])⟩,
    ⟨"working_dir", .text "path string", fun p => p.workingDir.map .text, none⟩,
    ⟨"cols", .word .bits16, fun p => some (.word p.cols.toNat), some (.word 80)⟩,
    ⟨"rows", .word .bits16, fun p => some (.word p.rows.toNat), some (.word 24)⟩,
    ⟨"backend", .choice "enum BackendChoice" Preference.words,
      fun p => some (.choice (Preference.words.idxOf p.backend.word)), some (.choice 0)⟩,
    ⟨"replay_kb", .word .size, fun p => some (.word p.replayKb.toNat), some (.word 64)⟩]

theorem fields_eq : fields = slots.map fun s => (s.key, s.field) := rfl

theorem fields_apart : (fields.map (·.1)).Nodup := by decide

theorem idxOf_ofIndex {i : Nat} (h : i < Preference.words.length) :
    Preference.words.idxOf (Preference.ofIndex i).word = i := by
  have hall : ∀ i < 3, Preference.words.idxOf (Preference.ofIndex i).word = i := by decide
  exact hall i h

/-- **Setting one slot** sets this and no other. -/
theorem get_set {t : Slot PanesSection} (ht : t ∈ slots) {c : Content} (hc : t.field.Allows c)
    (p : PanesSection) :
    ∀ s ∈ slots, s.get (p.set t.key c) = if s.key = t.key then some c else s.get p := by
  simp only [slots, List.mem_cons, List.not_mem_nil, or_false] at ht
  rcases ht with rfl | rfl | rfl | rfl | rfl | rfl | rfl | rfl
  · obtain ⟨n, hn, rfl⟩ := hc
    simpa [slots, set, Json.Width.bound] using hn
  · obtain ⟨a, rfl⟩ := hc
    simp [slots, set]
  · obtain ⟨l, rfl⟩ := hc
    simp [slots, set]
  · obtain ⟨a, rfl⟩ := hc
    simp [slots, set]
  · obtain ⟨n, hn, rfl⟩ := hc
    simpa [slots, set, Json.Width.bound] using hn
  · obtain ⟨n, hn, rfl⟩ := hc
    simpa [slots, set, Json.Width.bound] using hn
  · obtain ⟨i, hi, rfl⟩ := hc
    simp [slots, set, idxOf_ofIndex hi]
  · obtain ⟨n, hn, rfl⟩ := hc
    simpa [slots, set, Json.Width.bound] using hn

/-- **Setting several slots**, each once, by induction on what is set. -/
theorem get_foldl_set {cs : List (String × Content)} (hkeys : (cs.map (·.1)).Nodup)
    (hcs : ∀ e ∈ cs, ∃ t ∈ slots, t.key = e.1 ∧ t.field.Allows e.2) {s : Slot PanesSection}
    (hs : s ∈ slots) (p : PanesSection) :
    s.get (cs.foldl (fun p (k, c) => p.set k c) p) = (cs.lookup s.key).or (s.get p) := by
  induction cs generalizing p with
  | nil => rfl
  | cons e cs ih =>
    obtain ⟨k, c⟩ := e
    obtain ⟨hne, hrest⟩ := List.nodup_cons.mp hkeys
    obtain ⟨⟨t, ht, rfl, hc⟩, hmore⟩ := List.forall_mem_cons.mp hcs
    rw [List.foldl_cons, ih hrest hmore, get_set ht hc p s hs, lookup_cons_if]
    split
    · next heq => rw [heq, lookup_eq_none_of_not_mem hne]; rfl
    · rfl

theorem get_dflt : ∀ s ∈ slots, s.get {} = s.dflt := by
  simp [slots, Preference.words, Preference.word]

/-- The panes are what they have for their slots. -/
theorem eq_of_get {p q : PanesSection} (h : ∀ s ∈ slots, s.get p = s.get q) : p = q := by
  have hbackend : ∀ b b' : Preference,
      Preference.words.idxOf b.word = Preference.words.idxOf b'.word → b = b' := by
    intro b b'
    cases b <;> cases b' <;> decide
  have hword : ∀ {n m : Nat}, some (Content.word n) = some (.word m) → n = m := by simp
  have htext : ∀ {a b : Option String}, a.map Content.text = b.map .text → a = b :=
    fun h => Option.map_injective (fun _ _ h => by simpa using h) h
  simp only [slots, List.forall_mem_cons] at h
  obtain ⟨hcount, hcommand, hargs, hdir, hcols, hrows, hkind, hreplay, -⟩ := h
  cases p
  cases q
  congr
  · exact UInt64.toNat_inj.mp (hword hcount)
  · exact htext hcommand
  · simpa using hargs
  · exact htext hdir
  · exact UInt16.toNat_inj.mp (hword hcols)
  · exact UInt16.toNat_inj.mp (hword hrows)
  · exact hbackend _ _ (by simpa using hkind)
  · exact UInt64.toNat_inj.mp (hword hreplay)

end PanesSection

/-- **The panes** as part of a configuration. -/
def panesPart : Part PanesSection where
  name := "panes"
  slots := PanesSection.slots
  read := PanesSection.ofSetting
  dflt := {}
  get_dflt := PanesSection.get_dflt
  read_table es h := by
    have hread : ∀ f ∈ PanesSection.fields,
        ∀ v, es.lookup f.1 = some v → ∃ c, f.2.read v = .ok c := by
      rw [PanesSection.fields_eq]
      rintro f hf
      obtain ⟨s, hs, rfl⟩ := List.mem_map.mp hf
      exact h s hs
    obtain ⟨cs, hcs, hkeys, hallows, hlookup⟩ :=
      extract_eq "PanesFileConfig" PanesSection.fields_apart hread
    refine ⟨_, by rw [PanesSection.ofSetting, hcs]; rfl, fun s hs => ?_⟩
    rw [PanesSection.fields_eq] at hallows hlookup
    have hslots : ∀ e ∈ cs, ∃ t ∈ PanesSection.slots, t.key = e.1 ∧ t.field.Allows e.2 := by
      rintro e he
      obtain ⟨f, hf, hkey, hc⟩ := hallows e he
      obtain ⟨t, ht, rfl⟩ := List.mem_map.mp hf
      exact ⟨t, ht, hkey, hc⟩
    rw [PanesSection.get_foldl_set hkeys hslots hs, hlookup _ (List.mem_map_of_mem hs),
      PanesSection.get_dflt s hs]

end PaneRelay.Config
