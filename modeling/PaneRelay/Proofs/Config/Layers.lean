import PaneRelay.Config.Daemon

/-! # Layers of settings

Laying one tree over another joins tables key by key. So what the result has at a key of a section is
what the upper tree has there, or else what the lower one has. This needs that no key stands twice in
a table of the upper tree, which is so for whatever variables give.

* `Setting.Distinct`: no key stands twice in a table, nor in the tables inside of it.
* `lookup_laidOnAll`, `Setting.at?_laidOn`: what is found at a key and in a section.
* `Environment.layers`: a tree for each variable that gives one; `setting_eq` lays them over each
  other, and `table_of_layer` shows that their keys differ. -/

namespace PaneRelay.Config

open PaneRelay.Text

variable {es below : List (String × Setting)} {k : String} {v u : Setting}

/-! ### Entries of a table -/

theorem lookup_cons_if {β : Type} {es : List (String × β)} {b : β} (k' : String) :
    ((k, b) :: es).lookup k' = if k' = k then some b else es.lookup k' := by
  rw [List.lookup_cons]
  by_cases h : k' = k
  · rw [if_pos h, beq_iff_eq.mpr h]
  · rw [if_neg h, beq_eq_false_iff_ne.mpr h]

theorem lookup_eq_none_of_not_mem {β : Type} {es : List (String × β)} (h : k ∉ es.map (·.1)) :
    es.lookup k = none := by
  rw [List.lookup_eq_none_iff]
  rintro e he
  rw [bne_iff_ne]
  rintro rfl
  exact h (List.mem_map_of_mem he)

theorem lookup_put (k' : String) :
    (Setting.put k v es).lookup k' = if k' = k then some v else es.lookup k' := by
  induction es with
  | nil => exact lookup_cons_if k'
  | cons e es ih =>
    obtain ⟨k₁, v₁⟩ := e
    unfold Setting.put
    split
    · next heq =>
      subst heq
      rw [lookup_cons_if, lookup_cons_if]
      split <;> rfl
    · next hne =>
      rw [lookup_cons_if, lookup_cons_if, ih]
      split
      · next heq => rw [if_neg (heq ▸ hne)]
      · rfl

theorem mem_put {e : String × Setting} (h : e ∈ Setting.put k v es) : e = (k, v) ∨ e ∈ es := by
  induction es with
  | nil => exact .inl (List.mem_singleton.mp h)
  | cons e₁ es ih =>
    unfold Setting.put at h
    split at h
    · exact (List.mem_cons.mp h).imp_right (List.mem_cons_of_mem _)
    · obtain rfl | h := List.mem_cons.mp h
      · exact .inr List.mem_cons_self
      · exact (ih h).imp_right (List.mem_cons_of_mem _)

theorem nodup_put (h : (es.map (·.1)).Nodup) : ((Setting.put k v es).map (·.1)).Nodup := by
  induction es with
  | nil => simp [Setting.put]
  | cons e es ih =>
    obtain ⟨hne, hes⟩ := List.nodup_cons.mp h
    unfold Setting.put
    split
    · next heq =>
      subst heq
      exact h
    · next hk =>
      refine List.nodup_cons.mpr ⟨?_, ih hes⟩
      rintro hmem
      obtain ⟨e', he', heq⟩ := List.mem_map.mp hmem
      obtain rfl | he' := mem_put he'
      · exact hk heq.symm
      · exact hne (heq ▸ List.mem_map_of_mem he')

/-! ### One tree over another -/

namespace Setting

/-- A setting is a table. -/
def IsTable (v : Setting) : Prop := ∃ es, v = .table es

/-- A setting over what stands at its key in the tree below, if something does. -/
def above (v : Setting) : Option Setting → Setting
  | some u => v.laidOn u
  | none => v

theorem laidOnAll_cons (v : Setting) (es below : List (String × Setting)) :
    laidOnAll ((k, v) :: es) below = laidOnAll es (put k (v.above (below.lookup k)) below) := by
  rw [laidOnAll]
  cases below.lookup k <;> rfl

theorem isTable_laidOn (hv : v.IsTable) (u : Setting) : (v.laidOn u).IsTable := by
  obtain ⟨es, rfl⟩ := hv
  unfold laidOn
  cases u <;> exact ⟨_, rfl⟩

theorem isTable_above (hv : v.IsTable) (u? : Option Setting) : (v.above u?).IsTable := by
  cases u? with
  | none => exact hv
  | some u => exact isTable_laidOn hv u

/-- What is no table replaces all that is below it. -/
theorem above_of_not_isTable (h : ¬ v.IsTable) (u? : Option Setting) : v.above u? = v := by
  cases u? with
  | none => rfl
  | some u =>
    show v.laidOn u = v
    unfold laidOn
    split
    · exact absurd ⟨_, rfl⟩ h
    · rfl

/-- **What is found at a key** of entries laid over others, by induction on the upper ones. -/
theorem lookup_laidOnAll (h : (es.map (·.1)).Nodup) (k : String) :
    (laidOnAll es below).lookup k =
      ((es.lookup k).map fun v => v.above (below.lookup k)).or (below.lookup k) := by
  induction es generalizing below with
  | nil => rfl
  | cons e es ih =>
    obtain ⟨k₁, v₁⟩ := e
    obtain ⟨hne, hes⟩ := List.nodup_cons.mp h
    rw [laidOnAll_cons, ih hes, lookup_put, lookup_cons_if]
    by_cases hk : k = k₁
    · subst hk
      rw [lookup_eq_none_of_not_mem hne]
      simp
    · simp [hk]

theorem child?_laidOn (hv : (es.map (·.1)).Nodup) (k : String) :
    ((table es).laidOn (.table below)).child? k =
      ((es.lookup k).map fun v => v.above (below.lookup k)).or (below.lookup k) :=
  lookup_laidOnAll hv k

/-- **No key stands twice** in a table, or in a table inside of it. -/
inductive Distinct : Setting → Prop where
  | table {es : List (String × Setting)} : (es.map (·.1)).Nodup → (∀ e ∈ es, Distinct e.2) →
      Distinct (.table es)
  | other {v : Setting} : ¬ v.IsTable → Distinct v

theorem Distinct.nodup (h : (Setting.table es).Distinct) : (es.map (·.1)).Nodup := by
  cases h with
  | table h _ => exact h
  | other h => exact absurd ⟨_, rfl⟩ h

theorem Distinct.entry (h : (Setting.table es).Distinct) : ∀ e ∈ es, e.2.Distinct := by
  cases h with
  | table _ h => exact h
  | other h => exact absurd ⟨_, rfl⟩ h

theorem Distinct.child (h : (Setting.table es).Distinct) (hk : es.lookup k = some v) :
    v.Distinct := by
  obtain ⟨es₁, es₂, rfl, -⟩ := List.lookup_eq_some_iff.mp hk
  exact h.entry (k, v) (by simp)

theorem Distinct.put (h : (Setting.table es).Distinct) (hv : v.Distinct) :
    (Setting.table (Setting.put k v es)).Distinct := by
  refine .table (nodup_put h.nodup) fun e he => ?_
  obtain rfl | he := mem_put he
  · exact hv
  · exact h.entry e he

theorem Distinct.laidOnAll (hall : ∀ e ∈ es, e.2.Distinct)
    (hover : ∀ e ∈ es, ∀ u : Setting, u.Distinct → (e.2.laidOn u).Distinct)
    (hbelow : (Setting.table below).Distinct) :
    (Setting.table (Setting.laidOnAll es below)).Distinct := by
  induction es generalizing below with
  | nil => exact hbelow
  | cons e es ih =>
    obtain ⟨k, v⟩ := e
    obtain ⟨hv, hes⟩ := List.forall_mem_cons.mp hall
    obtain ⟨hover, hovers⟩ := List.forall_mem_cons.mp hover
    rw [laidOnAll_cons]
    refine ih hes hovers (hbelow.put ?_)
    cases hu : below.lookup k with
    | none => exact hv
    | some u => exact hover u (hbelow.child hu)

/-- **Laying trees over each other keeps keys apart**, by induction on the upper one. -/
theorem Distinct.laidOn (hv : v.Distinct) : ∀ u : Setting, u.Distinct → (v.laidOn u).Distinct := by
  induction hv with
  | @other v hv =>
    intro u _
    have heq : v.laidOn u = v := above_of_not_isTable hv (some u)
    exact heq.symm ▸ .other hv
  | @table es hes hall ih =>
    intro u hu
    unfold Setting.laidOn
    cases u with
    | table below => exact .laidOnAll hall ih hu
    | _ => exact .table hes hall

theorem at?_pair {part name : String} :
    v.at? [part, name] = (v.child? part).bind fun x => x.child? name := by
  simp only [at?, Option.bind_fun_some]

/-- **What is found in a section**, where sections are tables and their entries are none: what the
upper tree has, or else what the lower one has. -/
theorem at?_laidOn {part name : String} (hv : v.IsTable) (hd : v.Distinct) (hu : u.IsTable)
    (hvpart : ∀ x, v.child? part = some x → x.IsTable)
    (hupart : ∀ x, u.child? part = some x → x.IsTable)
    (hentry : ∀ x, v.at? [part, name] = some x → ¬ x.IsTable) :
    (v.laidOn u).at? [part, name] = (v.at? [part, name]).or (u.at? [part, name]) := by
  obtain ⟨es, rfl⟩ := hv
  obtain ⟨below, rfl⟩ := hu
  simp only [at?_pair, child?_laidOn hd.nodup part] at hentry ⊢
  show _ = ((es.lookup part).bind _).or ((below.lookup part).bind _)
  cases hes : es.lookup part with
  | none => rfl
  | some x =>
    obtain ⟨xs, rfl⟩ := hvpart x hes
    have hentry : ∀ z, xs.lookup name = some z → ¬ z.IsTable := by
      intro z hz
      refine hentry z ?_
      show (es.lookup part).bind _ = some z
      rw [hes]
      exact hz
    cases hbelow : below.lookup part with
    | none => simp [above]
    | some y =>
      obtain ⟨ys, rfl⟩ := hupart y hbelow
      have hjoined : ((table xs).above (some (table ys))).child? name = _ :=
        child?_laidOn (hd.child hes).nodup name
      simp only [Option.map_some, Option.some_or, Option.bind_some, hjoined]
      show _ = (xs.lookup name).or (ys.lookup name)
      cases hz : xs.lookup name with
      | none => rfl
      | some z => simp [above_of_not_isTable (hentry z hz)]

/-- Sections stay tables. -/
theorem isTable_child?_laidOn {part : String} (hv : v.IsTable) (hd : v.Distinct) (hu : u.IsTable)
    (hvpart : ∀ x, v.child? part = some x → x.IsTable)
    (hupart : ∀ x, u.child? part = some x → x.IsTable) :
    ∀ x, (v.laidOn u).child? part = some x → x.IsTable := by
  obtain ⟨es, rfl⟩ := hv
  obtain ⟨below, rfl⟩ := hu
  intro x hx
  rw [child?_laidOn hd.nodup part] at hx
  cases hes : es.lookup part with
  | none =>
    rw [hes] at hx
    exact hupart x hx
  | some y =>
    rw [hes] at hx
    obtain ⟨ys, rfl⟩ := hvpart y hes
    cases hx
    exact isTable_above ⟨ys, rfl⟩ _

end Setting

/-! ### Variables -/

namespace Environment

/-- **What the readers of values give** at a text has no key twice. -/
structure Reads (s : List Char) : Prop where
  value : ∀ v t, readValue s = some (v, t) → v.Distinct
  entries : ∀ es x, (Setting.table es).Distinct → readEntries es s = some x →
    (Setting.table x.val).Distinct

variable {s : List Char}

theorem not_isTable_of_real? {v : Setting} (h : real? s = some v) : ¬ v.IsTable := by
  unfold real? at h
  dsimp only at h
  split at h
  · obtain ⟨e, -, h⟩ := Option.bind_eq_some_iff.mp h
    obtain ⟨n, -, h⟩ := Option.bind_eq_some_iff.mp h
    cases h
    exact nofun
  · cases h

theorem not_isTable_of_whole? {v : Setting} (h : whole? s = some v) : ¬ v.IsTable := by
  unfold whole? at h
  split at h
  all_goals
    obtain ⟨n, -, h⟩ := Option.bind_eq_some_iff.mp h
    split at h
    · cases h
      exact nofun
    · cases h

theorem not_isTable_plain (s : List Char) : ¬ (plain s).IsTable := by
  unfold plain
  cases hreal : real? s with
  | some v => exact not_isTable_of_real? hreal
  | none =>
    cases hwhole : whole? s with
    | some v => exact not_isTable_of_whole? hwhole
    | none => exact nofun

theorem readForm_distinct (ih : ∀ t : List Char, t.length < s.length → Reads t) {v : Setting}
    {t : Rest s} (h : readForm s = some (v, t)) : v.Distinct := by
  fun_cases readForm s
  case case1 | case2 | case6 =>
    rw [readForm] at h
    cases h
    exact .other nofun
  case case3 r =>
    rw [readForm] at h
    obtain ⟨x, hx, h⟩ := Option.bind_eq_some_iff.mp h
    cases h
    exact (ih r (Nat.lt_succ_self _)).entries [] x (.table .nil (by simp)) hx
  case case4 | case5 =>
    rw [readForm] at h
    obtain ⟨x, -, h⟩ := Option.bind_eq_some_iff.mp h
    cases h
    exact .other nofun
  case case7 =>
    rw [readForm] at h
    · cases h
    · assumption
  case case8 =>
    rw [readForm] at h
    · cases h
      exact .other (not_isTable_plain _)
    all_goals assumption

theorem readValue_distinct (ih : ∀ t : List Char, t.length < s.length → Reads t) {v : Setting}
    {t : Rest s} (h : readValue s = some (v, t)) : v.Distinct := by
  unfold readValue at h
  obtain ⟨⟨v', t'⟩, hform, h⟩ := Option.bind_eq_some_iff.mp h
  cases h
  exact readForm_distinct (fun t ht => ih t (Nat.lt_of_lt_of_le ht (skipBlanks s).2)) hform

/-- Each entry is put into the table, whose keys stay apart. -/
theorem readEntries_distinct (ih : ∀ t : List Char, t.length < s.length → Reads t)
    {es : List (String × Setting)} (hes : (Setting.table es).Distinct)
    {x : Step s (List (String × Setting))} (h : readEntries es s = some x) :
    (Setting.table x.val).Distinct := by
  cases s with
  | nil => rw [readEntries] at h; cases h
  | cons c r =>
    rw [readEntries] at h
    split at h
    · cases h
      exact hes
    · obtain ⟨⟨k, t, hlt⟩, -, h⟩ := Option.bind_eq_some_iff.mp h
      obtain ⟨⟨_, u, hlt₁⟩, -, h⟩ := Option.bind_eq_some_iff.mp h
      obtain ⟨⟨v, w, hle⟩, hv, h⟩ := Option.bind_eq_some_iff.mp h
      have hu : u.length < (c :: r).length := Nat.lt_trans hlt₁ hlt
      have hes := hes.put (k := k) ((ih u hu).value v _ hv)
      dsimp only at h
      split at h
      · next y z hlt₂ _ =>
        obtain ⟨y, hy, h⟩ := Option.bind_eq_some_iff.mp h
        cases h
        have hrest : z.length < (c :: r).length :=
          Nat.lt_trans hlt₂ (Nat.lt_of_le_of_lt hle hu)
        exact (ih z hrest).entries _ y hes hy
      · obtain ⟨y, -, h⟩ := Option.bind_eq_some_iff.mp h
        cases h
        exact hes

/-- **The readers give no key twice**, by induction on the length of the text. -/
theorem reads (s : List Char) : Reads s := by
  induction hn : s.length using Nat.strongRecOn generalizing s with
  | ind n ih =>
    have hless : ∀ t : List Char, t.length < s.length → Reads t :=
      fun t ht => ih t.length (hn ▸ ht) t rfl
    exact ⟨fun v t h => readValue_distinct hless h,
      fun es x hes h => readEntries_distinct hless hes h⟩

theorem distinct_valueOf (value : String) : (valueOf value).Distinct := by
  unfold valueOf
  dsimp only
  split
  · next h => exact (reads _).value _ _ h
  · exact .other nofun

theorem distinct_nest {v : Setting} (h : v.Distinct) (path : List String) :
    (nest v path).Distinct := by
  induction path with
  | nil => exact h
  | cons k path ih => exact .table (List.pairwise_singleton _ _) (by simpa using ih)

/-- **The trees that variables give**, in the order of the variables. -/
def layers (env : Environment) : List Setting :=
  (settled env).filterMap fun (name, value) => settingOf? name value

/-- The tree of all variables is what their trees make, each laid over those before it. -/
theorem setting_eq (env : Environment) :
    env.setting = env.layers.foldl (fun t v => v.laidOn t) (.table []) := by
  rw [setting, layers, List.foldl_filterMap]
  congr
  funext t ⟨name, value⟩
  dsimp only
  cases settingOf? name value <;> rfl

theorem splitPath_ne_nil (word s : List Char) : splitPath word s ≠ [] := by
  fun_induction splitPath word s <;> simp_all

/-- **A variable gives a table** in which no key stands twice. -/
theorem table_of_layer {env : Environment} {v : Setting} (h : v ∈ env.layers) :
    v.IsTable ∧ v.Distinct := by
  obtain ⟨⟨name, value⟩, -, h⟩ := List.mem_filterMap.mp h
  obtain ⟨path, hpath, rfl⟩ := Option.map_eq_some_iff.mp h
  refine ⟨?_, distinct_nest (distinct_valueOf value) path⟩
  unfold pathOf? at hpath
  dsimp only at hpath
  split at hpath
  · split at hpath
    · cases hpath
    · cases hpath
      obtain ⟨part, parts, hparts⟩ := List.exists_cons_of_ne_nil
        (splitPath_ne_nil [] (trim ((trim name.toList).drop marker.length)))
      rw [hparts]
      exact ⟨_, rfl⟩
  · cases hpath

end Environment

/-! ### Files -/

/-- **A file is a table.** -/
theorem isTable_of_file {toml : Option String} (h : fileSetting toml = some v) : v.IsTable := by
  cases toml with
  | none =>
    cases h
    exact ⟨_, rfl⟩
  | some text =>
    obtain ⟨lines, -, h⟩ := Option.bind_eq_some_iff.mp h
    obtain ⟨entries, -, h⟩ := Option.bind_eq_some_iff.mp h
    split at h
    · cases h
      exact ⟨_, rfl⟩
    · cases h

end PaneRelay.Config
