import PaneRelay.Proofs.Terminal.Splitting

/-! # What completing line ends does to a text

A carriage return is lone if no line feed follows it, so whether a byte is followed by a line feed that
was not there depends on the next byte alone. Everything is said by positions: `place l i` is where
the byte at position `i` of `l` comes to stand, and the only other positions of the result are those
right behind lone carriage returns.

* `Lone`, `place`: lone carriage returns, and where bytes come to stand.
* `Expands`: a text with a line feed behind each lone carriage return, and no other change.
* `expands_iff`: there is just one such text, and completing gives it.
* `Expands.crlf`, `Expands.loneFeed`: line ends that were there already.
* `line_ends_completed`: all of it, for byte strings. -/

namespace PaneRelay.Terminal.LineEnding

variable {l out : List UInt8} {i j : Nat}

/-! ### Positions -/

/-- **A carriage return that no line feed follows.** -/
def Lone (l : List UInt8) (i : Nat) : Prop := l[i]? = some cr ∧ l[i + 1]? ≠ some lf

instance (l : List UInt8) (i : Nat) : Decidable (Lone l i) := inferInstanceAs (Decidable (_ ∧ _))

/-- How many carriage returns before a position are lone. -/
def lonesBelow (l : List UInt8) (i : Nat) : Nat := (List.range i).countP (fun k => Lone l k)

/-- **Where a byte comes to stand** when a line feed is put behind each lone carriage return. -/
def place (l : List UInt8) (i : Nat) : Nat := i + lonesBelow l i

/-- A carriage return with its line feed. -/
def Crlf (l : List UInt8) (i : Nat) : Prop := l[i]? = some cr ∧ l[i + 1]? = some lf

/-- A line feed without a carriage return before it. -/
def LoneFeed (l : List UInt8) (i : Nat) : Prop :=
  l[i]? = some lf ∧ ∀ k, i = k + 1 → l[k]? ≠ some cr

theorem Lone.lt (h : Lone l i) : i < l.length := (List.getElem?_eq_some_iff.mp h.1).1

theorem lone_cons_zero {b : UInt8} :
    Lone (b :: l) 0 ↔ (b == cr && !startsWithLf l) = true := by
  cases l <;> simp [Lone, startsWithLf]

theorem lone_cons_succ {b : UInt8} : Lone (b :: l) (i + 1) ↔ Lone l i := by
  simp [Lone]

@[simp] theorem place_zero (l : List UInt8) : place l 0 = 0 := rfl

theorem place_succ (l : List UInt8) (i : Nat) :
    place l (i + 1) = place l i + if Lone l i then 2 else 1 := by
  have hcount : lonesBelow l (i + 1) = lonesBelow l i + if Lone l i then 1 else 0 := by
    simp [lonesBelow, List.range_succ, List.countP_append, List.countP_singleton]
  unfold place
  rw [hcount]
  split <;> omega

/-- Behind the first byte the text is one shorter, and so are the places. -/
theorem place_cons_succ (b : UInt8) (l : List UInt8) (i : Nat) :
    place (b :: l) (i + 1) = place l i + if Lone (b :: l) 0 then 2 else 1 := by
  induction i with
  | zero =>
    rw [place_succ, place_zero, place_zero]
  | succ i ih =>
    rw [place_succ, ih, place_succ l i]
    simp only [lone_cons_succ]
    omega

/-- **Every position below a place** is itself a place, or right behind that of a lone carriage
return. -/
theorem place_cover (l : List UInt8) {n : Nat} (h : j < place l n) :
    (∃ i < n, j = place l i) ∨ ∃ i < n, Lone l i ∧ j = place l i + 1 := by
  induction n with
  | zero => simp at h
  | succ n ih =>
    by_cases hj : j < place l n
    · rcases ih hj with ⟨i, hi, he⟩ | ⟨i, hi, hl, he⟩
      · exact .inl ⟨i, by omega, he⟩
      · exact .inr ⟨i, by omega, hl, he⟩
    · rw [place_succ] at h
      by_cases hl : Lone l n
      · -- two positions belong to the last byte
        rw [if_pos hl] at h
        have hor : j = place l n ∨ j = place l n + 1 := by omega
        rcases hor with he | he
        · exact .inl ⟨n, by omega, he⟩
        · exact .inr ⟨n, by omega, hl, he⟩
      · rw [if_neg hl] at h
        exact .inl ⟨n, by omega, by omega⟩

/-! ### The completed text -/

/-- **A line feed was put right behind each lone carriage return**, and nothing else was changed. -/
structure Expands (l out : List UInt8) : Prop where
  /-- Each byte is at its place. -/
  kept : ∀ i < l.length, out[place l i]? = l[i]?
  /-- Behind each lone carriage return is a line feed. -/
  added : ∀ i, Lone l i → out[place l i + 1]? = some lf
  /-- There is nothing more. -/
  length : out.length = l.length + lonesBelow l l.length

theorem complete_cons_of_lone {b : UInt8} (h : Lone (b :: l) 0) :
    complete (b :: l) = b :: lf :: complete l := by
  rw [complete_cons, if_pos (lone_cons_zero.mp h)]

theorem complete_cons_of_not_lone {b : UInt8} (h : ¬ Lone (b :: l) 0) :
    complete (b :: l) = b :: complete l := by
  rw [complete_cons, if_neg (fun hb => h (lone_cons_zero.mpr hb))]

/-- Behind what becomes of the first byte, completing goes on as it would there. -/
theorem complete_cons_append (b : UInt8) (l : List UInt8) :
    ∃ first, complete (b :: l) = first ++ complete l ∧
      first.length = if Lone (b :: l) 0 then 2 else 1 := by
  by_cases hb : Lone (b :: l) 0
  · exact ⟨[b, lf], complete_cons_of_lone hb, by rw [if_pos hb]; rfl⟩
  · exact ⟨[b], complete_cons_of_not_lone hb, by rw [if_neg hb]; rfl⟩

/-- Completing expands a text, by induction on the text: behind its first byte all moves by one
place, or by two if that byte is a lone carriage return. -/
theorem expands_complete (l : List UInt8) : Expands l (complete l) := by
  induction l with
  | nil =>
    constructor
    · intro i hi
      simp at hi
    · intro i hl
      have := hl.lt
      simp at this
    · rfl
  | cons b l ih =>
    obtain ⟨first, happend, hfirst⟩ := complete_cons_append b l
    have hrest : ∀ j, (complete (b :: l))[j + if Lone (b :: l) 0 then 2 else 1]? =
        (complete l)[j]? := by
      intro j
      rw [happend, ← hfirst, List.getElem?_append_right (by omega), Nat.add_sub_cancel]
    constructor
    · intro i hi
      cases i with
      | zero =>
        rw [place_zero, complete_cons]
        split <;> rfl
      | succ i =>
        rw [place_cons_succ, hrest, ih.kept i (by simpa using hi)]
        rfl
    · intro i hl
      cases i with
      | zero =>
        rw [complete_cons_of_lone hl]
        rfl
      | succ i =>
        rw [place_cons_succ, Nat.add_right_comm, hrest, ih.added i (lone_cons_succ.mp hl)]
    · have hlast := place_cons_succ b l l.length
      simp only [place, List.length_cons] at hlast ⊢
      rw [happend, List.length_append, hfirst, ih.length]
      omega

/-- The rules say what is at each position. -/
theorem Expands.eq (h : Expands l out) {out' : List UInt8} (h' : Expands l out') : out = out' := by
  have hlen : out.length = out'.length := by rw [h.length, h'.length]
  refine List.ext_getElem? fun j => ?_
  by_cases hj : j < out.length
  · have hplace : j < place l l.length := by
      rw [h.length] at hj
      exact hj
    rcases place_cover l hplace with ⟨i, hi, rfl⟩ | ⟨i, -, hl, rfl⟩
    · rw [h.kept i hi, h'.kept i hi]
    · rw [h.added i hl, h'.added i hl]
  · have hj' : ¬ j < out'.length := by omega
    rw [List.getElem?_eq_none (by omega), List.getElem?_eq_none (by omega)]

theorem expands_iff : Expands l out ↔ out = complete l := by
  constructor
  · intro h
    exact h.eq (expands_complete l)
  · rintro rfl
    exact expands_complete l

/-! ### Line ends that were there -/

theorem Crlf.not_lone (h : Crlf l i) : ¬ Lone l i := fun hl => hl.2 h.2

theorem Expands.crlf (h : Expands l out) (hc : Crlf l i) : Crlf out (place l i) := by
  have hsecond : i + 1 < l.length := (List.getElem?_eq_some_iff.mp hc.2).1
  have hnext : place l (i + 1) = place l i + 1 := by rw [place_succ, if_neg hc.not_lone]
  constructor
  · rw [h.kept i (by omega), hc.1]
  · rw [← hnext, h.kept (i + 1) hsecond, hc.2]

theorem Expands.loneFeed (h : Expands l out) (hf : LoneFeed l i) : LoneFeed out (place l i) := by
  obtain ⟨hfeed, hbefore⟩ := hf
  have hi : i < l.length := (List.getElem?_eq_some_iff.mp hfeed).1
  constructor
  · rw [h.kept i hi, hfeed]
  · intro k hk
    cases i with
    | zero => simp at hk
    | succ m =>
      -- the byte before is no carriage return, so nothing came between
      have hm : l[m]? ≠ some cr := hbefore m rfl
      have hnot : ¬ Lone l m := fun hl => hm hl.1
      rw [place_succ, if_neg hnot] at hk
      have hkm : k = place l m := by omega
      rw [hkm, h.kept m (by omega)]
      exact hm

/-! ### Nothing is left to complete -/

theorem hasLone_iff : hasLone l = true ↔ ∃ i, Lone l i := by
  induction l with
  | nil => simp [hasLone, Lone]
  | cons b l ih =>
    rw [hasLone, Bool.or_eq_true, ih, ← lone_cons_zero]
    constructor
    · rintro (h | ⟨i, h⟩)
      · exact ⟨0, h⟩
      · exact ⟨i + 1, lone_cons_succ.mpr h⟩
    · rintro ⟨i, h⟩
      cases i with
      | zero => exact .inl h
      | succ i => exact .inr ⟨i, lone_cons_succ.mp h⟩

theorem startsWithLf_complete (l : List UInt8) : startsWithLf (complete l) = startsWithLf l := by
  cases l with
  | nil => rfl
  | cons b l =>
    rw [complete_cons]
    split <;> rfl

/-- A completed text has no lone carriage return, by induction on the text. -/
theorem hasLone_complete (l : List UInt8) : hasLone (complete l) = false := by
  induction l with
  | nil => rfl
  | cons b l ih =>
    by_cases hb : Lone (b :: l) 0
    · rw [complete_cons_of_lone hb]
      simp [hasLone, startsWithLf, ih, lf, cr]
    · have hfirst : (b == cr && !startsWithLf l) = false := by
        rw [← Bool.not_eq_true]
        exact fun h => hb (lone_cons_zero.mpr h)
      rw [complete_cons_of_not_lone hb, hasLone, startsWithLf_complete, hfirst, ih, Bool.or_false]

theorem complete_eq_self_iff : complete l = l ↔ hasLone l = false := by
  constructor
  · intro h
    rw [← h]
    exact hasLone_complete l
  · exact complete_of_not_hasLone

theorem normalize_changed (data : ByteArray) :
    (normalize data).2 = hasLone data.data.toList := by
  unfold normalize
  dsimp only
  split
  · next h => exact h.symm
  · next h => exact (Bool.eq_false_iff.mpr h).symm

theorem normalize_of_not_hasLone {data : ByteArray} (h : hasLone data.data.toList = false) :
    normalize data = (data, false) := by
  unfold normalize
  dsimp only
  rw [if_neg (by simp [h])]

/-- **Completed line ends.** The result is the one text that has a line feed right behind each lone
carriage return of the data and is the same otherwise, so it is longer by as many bytes as there are
lone carriage returns, and all line ends that were there are kept. It has no lone carriage return. The
data are passed on as they are just if completing would not change them, and a second time nothing
changes. -/
theorem line_ends_completed (data : ByteArray) :
    (∀ out : ByteArray, Expands data.data.toList out.data.toList ↔ out = (normalize data).1) ∧
    (normalize data).1.size = data.size + lonesBelow data.data.toList data.size ∧
    (∀ i, (Crlf data.data.toList i →
        Crlf (normalize data).1.data.toList (place data.data.toList i)) ∧
      (LoneFeed data.data.toList i →
        LoneFeed (normalize data).1.data.toList (place data.data.toList i))) ∧
    (∀ j, ¬ Lone (normalize data).1.data.toList j) ∧
    ((normalize data).2 = false ↔ complete data.data.toList = data.data.toList) ∧
    ((normalize data).2 = false → (normalize data).1 = data) ∧
    normalize (normalize data).1 = ((normalize data).1, false) := by
  have hbytes := toList_normalize data
  have hexpands : Expands data.data.toList (normalize data).1.data.toList := by
    rw [hbytes]
    exact expands_complete _
  have hnone : hasLone (normalize data).1.data.toList = false := by
    rw [hbytes]
    exact hasLone_complete _
  refine ⟨fun out => ?_, ?_, fun i => ⟨hexpands.crlf, hexpands.loneFeed⟩, fun j hj => ?_, ?_,
    fun h => ?_, normalize_of_not_hasLone hnone⟩
  · rw [expands_iff, ← hbytes]
    constructor
    · intro h
      exact ByteArray.ext (Array.toList_inj.mp h)
    · rintro rfl
      rfl
  · simpa using hexpands.length
  · have hsome := hasLone_iff.mpr ⟨j, hj⟩
    rw [hnone] at hsome
    cases hsome
  · rw [normalize_changed, complete_eq_self_iff]
  · rw [normalize_changed] at h
    rw [normalize_of_not_hasLone h]

/-- Lone carriage returns before a line end, and at the end of the text. -/
example : complete [cr, cr, lf, cr] = [cr, lf, cr, lf, cr, lf] := by decide

end PaneRelay.Terminal.LineEnding
