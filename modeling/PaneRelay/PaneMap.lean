/-! # Maps keyed by pane

A `PaneMap α` holds one value of `α` for each of finitely many pane IDs, in the order in which the
IDs were first inserted. The keys are pairwise different by construction, so a map is determined by
`find?` up to that order, and every operation below is described by what it does to `find?`.

* `find?_insert_self`, `find?_insert_ne`: an insertion changes one key.
* `find?_erase_self`, `find?_erase_ne`: so does a removal.
* `find?_keep`: `keep` forgets exactly the keys that fail its test.
* `find?_mapVal`: `mapVal` changes values and no keys. -/

namespace PaneRelay

/-- A pane ID, the name under which a terminal's output travels. -/
abbrev PaneId := String

/-- **A map keyed by panes**, in order of first insertion. -/
structure PaneMap (α : Type) where
  /-- The keys with their values, oldest first. -/
  entries : List (PaneId × α)
  /-- No key occurs twice. -/
  nodup : (entries.map Prod.fst).Nodup

namespace PaneMap

variable {α β : Type}

/-- The map without keys. -/
def empty : PaneMap α := ⟨[], List.nodup_nil⟩

instance : Inhabited (PaneMap α) := ⟨empty⟩

/-- The keys, oldest first. -/
def keys (m : PaneMap α) : List PaneId := m.entries.map Prod.fst

/-- How many keys there are. -/
def size (m : PaneMap α) : Nat := m.entries.length

/-- The value of a key, if there is one. -/
def find? (m : PaneMap α) (p : PaneId) : Option α := m.entries.lookup p

/-- Whether a key is present. -/
def contains (m : PaneMap α) (p : PaneId) : Bool := (m.find? p).isSome

/-- Replaces the value of a key in a list of pairs, or adds the key at the end. -/
def put (p : PaneId) (a : α) : List (PaneId × α) → List (PaneId × α)
  | [] => [(p, a)]
  | (q, b) :: l => if q = p then (q, a) :: l else (q, b) :: put p a l

theorem mem_map_put {p q : PaneId} {a : α} {l : List (PaneId × α)} :
    q ∈ (put p a l).map Prod.fst ↔ q = p ∨ q ∈ l.map Prod.fst := by
  induction l with
  | nil => simp [put]
  | cons x l ih =>
    obtain ⟨r, b⟩ := x
    by_cases h : r = p
    · subst h; simp [put]
    · simp only [put, h, if_false, List.map_cons, List.mem_cons, ih]
      constructor
      · rintro (h1 | h1 | h1)
        · exact Or.inr (Or.inl h1)
        · exact Or.inl h1
        · exact Or.inr (Or.inr h1)
      · rintro (h1 | h1 | h1)
        · exact Or.inr (Or.inl h1)
        · exact Or.inl h1
        · exact Or.inr (Or.inr h1)

theorem nodup_put {p : PaneId} {a : α} {l : List (PaneId × α)} (h : (l.map Prod.fst).Nodup) :
    ((put p a l).map Prod.fst).Nodup := by
  induction l with
  | nil => simp [put]
  | cons x l ih =>
    obtain ⟨r, b⟩ := x
    simp only [List.map_cons, List.nodup_cons] at h
    by_cases hr : r = p
    · simp only [put, hr, if_true, List.map_cons, List.nodup_cons]
      exact ⟨hr ▸ h.1, h.2⟩
    · simp only [put, hr, if_false, List.map_cons, List.nodup_cons]
      refine ⟨fun hm => ?_, ih h.2⟩
      rcases mem_map_put.mp hm with h1 | h1
      · exact hr h1
      · exact h.1 h1

/-- Sets the value of a key; a new key becomes the youngest. -/
def insert (m : PaneMap α) (p : PaneId) (a : α) : PaneMap α :=
  ⟨put p a m.entries, nodup_put m.nodup⟩

/-- Keeps the keys that pass a test. -/
def keep (m : PaneMap α) (live : PaneId → Bool) : PaneMap α :=
  ⟨m.entries.filter (fun e => live e.1), by
    have h : ((m.entries.filter (fun e => live e.1)).map Prod.fst).Sublist
        (m.entries.map Prod.fst) := (List.filter_sublist (l := m.entries)).map _
    exact m.nodup.sublist h⟩

/-- Removes a key. -/
def erase (m : PaneMap α) (p : PaneId) : PaneMap α := m.keep (fun q => q != p)

/-- Changes every value. -/
def mapVal (m : PaneMap α) (f : PaneId → α → β) : PaneMap β :=
  ⟨m.entries.map (fun e => (e.1, f e.1 e.2)), by
    have h : (m.entries.map (fun e => (e.1, f e.1 e.2))).map Prod.fst = m.entries.map Prod.fst := by
      simp [List.map_map, Function.comp_def]
    rw [h]; exact m.nodup⟩

/-! ## What the operations do to look-ups -/

theorem lookup_put_self {p : PaneId} {a : α} {l : List (PaneId × α)} :
    (put p a l).lookup p = some a := by
  induction l with
  | nil => simp [put]
  | cons x l ih =>
    obtain ⟨r, b⟩ := x
    by_cases h : r = p
    · simp [put, h]
    · have h' : (p == r) = false := by simp [Ne.symm h]
      simp [put, h, List.lookup_cons, h', ih]

theorem lookup_put_ne {p q : PaneId} {a : α} {l : List (PaneId × α)} (hq : q ≠ p) :
    (put p a l).lookup q = l.lookup q := by
  have hb : (q == p) = false := by simp [hq]
  induction l with
  | nil => simp [put, List.lookup_cons, hb]
  | cons x l ih =>
    obtain ⟨r, b⟩ := x
    by_cases h : r = p
    · subst h
      simp [put, List.lookup_cons, hb]
    · cases h2 : q == r
      · simp [put, h, List.lookup_cons, h2, ih]
      · simp [put, h, List.lookup_cons, h2]

theorem lookup_filter {p : PaneId} {live : PaneId → Bool} {l : List (PaneId × α)} :
    (l.filter (fun e => live e.1)).lookup p = if live p then l.lookup p else none := by
  induction l with
  | nil => simp
  | cons x l ih =>
    obtain ⟨r, b⟩ := x
    cases h2 : p == r
    · cases hl : live r
      · simp [hl, List.lookup_cons, h2, ih]
      · simp [hl, List.lookup_cons, h2, ih]
    · have hpr : p = r := by simpa using h2
      subst hpr
      cases hl : live p
      · simp [hl, ih]
      · simp [hl]

@[simp] theorem find?_empty (p : PaneId) : (empty : PaneMap α).find? p = none := rfl

@[simp] theorem find?_insert_self (m : PaneMap α) (p : PaneId) (a : α) :
    (m.insert p a).find? p = some a := lookup_put_self

theorem find?_insert_ne (m : PaneMap α) {p q : PaneId} (a : α) (h : q ≠ p) :
    (m.insert p a).find? q = m.find? q := lookup_put_ne h

theorem find?_keep (m : PaneMap α) (live : PaneId → Bool) (p : PaneId) :
    (m.keep live).find? p = if live p then m.find? p else none := lookup_filter

@[simp] theorem find?_erase_self (m : PaneMap α) (p : PaneId) : (m.erase p).find? p = none := by
  simp [erase, find?_keep]

theorem find?_erase_ne (m : PaneMap α) {p q : PaneId} (h : q ≠ p) :
    (m.erase p).find? q = m.find? q := by
  simp [erase, find?_keep, h]

theorem find?_insert (m : PaneMap α) (p q : PaneId) (a : α) :
    (m.insert p a).find? q = if q = p then some a else m.find? q := by
  by_cases h : q = p
  · rw [if_pos h, h, find?_insert_self]
  · rw [if_neg h, find?_insert_ne m a h]

theorem find?_mapVal (m : PaneMap α) (f : PaneId → α → β) (p : PaneId) :
    (m.mapVal f).find? p = (m.find? p).map (f p) := by
  obtain ⟨l, hl⟩ := m
  show (l.map fun e => (e.1, f e.1 e.2)).lookup p = (l.lookup p).map (f p)
  clear hl
  induction l with
  | nil => rfl
  | cons e l ih =>
    obtain ⟨q, a⟩ := e
    by_cases h : p = q
    · subst h; simp
    · have hb : (p == q) = false := by simpa using h
      simpa [List.lookup_cons, hb] using ih

/-- The entries are the keys with what is found for them. -/
theorem mem_entries {m : PaneMap α} {p : PaneId} {a : α} :
    (p, a) ∈ m.entries ↔ m.find? p = some a := by
  obtain ⟨l, hl⟩ := m
  show (p, a) ∈ l ↔ l.lookup p = some a
  induction l with
  | nil => simp
  | cons e l ih =>
    obtain ⟨q, b⟩ := e
    have hq := (List.nodup_cons.mp hl).1
    specialize ih (List.nodup_cons.mp hl).2
    by_cases h : p = q
    · -- no other entry has this key
      subst h
      have hnone : (p, a) ∉ l := fun hm => hq (List.mem_map.mpr ⟨_, hm, rfl⟩)
      rw [List.lookup_cons_self, List.mem_cons, Option.some.injEq, eq_comm (a := b)]
      simp [hnone]
    · have hb : (p == q) = false := by simpa using h
      rw [List.lookup_cons, hb, List.mem_cons, ← ih]
      simp [h]

theorem mem_keys {m : PaneMap α} {p : PaneId} : p ∈ m.keys ↔ ∃ a, m.find? p = some a := by
  unfold keys
  rw [List.mem_map]
  constructor
  · rintro ⟨⟨q, a⟩, hm, rfl⟩
    exact ⟨a, mem_entries.mp hm⟩
  · rintro ⟨a, hf⟩
    exact ⟨(p, a), mem_entries.mpr hf, rfl⟩

/-- The entries of one key. -/
theorem entries_keep_eq (m : PaneMap α) (p : PaneId) :
    (m.keep fun q => !(q != p)).entries = ((m.find? p).map fun a => (p, a)).toList := by
  obtain ⟨l, hl⟩ := m
  show (l.filter fun e => !(e.1 != p)) = ((l.lookup p).map fun a => (p, a)).toList
  induction l with
  | nil => rfl
  | cons e l ih =>
    obtain ⟨q, a⟩ := e
    have hq := (List.nodup_cons.mp hl).1
    specialize ih (List.nodup_cons.mp hl).2
    by_cases h : p = q
    · -- no other entry has this key
      subst h
      have hnone : l.lookup p = none := by
        rw [List.lookup_eq_none_iff]
        intro e he
        simp only [bne_iff_ne, ne_eq]
        rintro rfl
        exact hq (List.mem_map.mpr ⟨e, he, rfl⟩)
      rw [hnone] at ih
      simpa using ih
    · have hb : (p == q) = false := by simpa using h
      have hb' : (q == p) = false := by simpa using Ne.symm h
      rw [List.lookup_cons, hb]
      simpa [hb', bne] using ih

theorem erase_eq_self {m : PaneMap α} {p : PaneId} (h : m.find? p = none) : m.erase p = m := by
  have hall : ∀ e ∈ m.entries, (e.1 != p) = true := by
    intro e hm
    rw [bne_iff_ne]
    rintro rfl
    simpa using List.lookup_eq_none_iff.mp h e hm
  unfold erase keep
  congr 1
  exact List.filter_eq_self.mpr hall

/-- What is kept depends on the test of the keys only. -/
theorem keep_congr {m : PaneMap α} {live live' : PaneId → Bool}
    (h : ∀ p ∈ m.keys, live p = live' p) : m.keep live = m.keep live' := by
  unfold keep
  congr 1
  exact List.filter_congr fun e he => h e.1 (List.mem_map.mpr ⟨e, he, rfl⟩)

@[simp] theorem keep_all (m : PaneMap α) : m.keep (fun _ => true) = m := by
  unfold keep
  congr 1
  exact List.filter_eq_self.mpr fun _ _ => rfl

@[simp] theorem keep_none (m : PaneMap α) : m.keep (fun _ => false) = empty := by
  unfold keep empty
  congr 1
  exact List.filter_eq_nil_iff.mpr fun _ _ => nofun

theorem mem_keys_keep {m : PaneMap α} {live : PaneId → Bool} {p : PaneId} :
    p ∈ (m.keep live).keys ↔ p ∈ m.keys ∧ live p := by
  simp only [keys, keep, List.mem_map, List.mem_filter]
  constructor
  · rintro ⟨e, ⟨h1, h2⟩, rfl⟩
    exact ⟨⟨e, h1, rfl⟩, h2⟩
  · rintro ⟨⟨e, h1, rfl⟩, h2⟩
    exact ⟨e, ⟨h1, h2⟩, rfl⟩

@[simp] theorem keys_mapVal (m : PaneMap α) (f : PaneId → α → β) : (m.mapVal f).keys = m.keys := by
  simp [keys, mapVal, List.map_map, Function.comp_def]

end PaneMap

end PaneRelay
