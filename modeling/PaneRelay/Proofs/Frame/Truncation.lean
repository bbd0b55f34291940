import PaneRelay.Proofs.Frame

/-! # How an ID is cut

The length byte can announce 255 bytes. A longer ID is cut where its 255th byte ends, or at the last
character boundary before that, which is found by stepping back. A character has at most four bytes,
so of four places in a row one is a boundary, and three steps back are enough.

* `LongestWithin`: the longest part of a text from its start that has at most so many bytes.
* `exists_isValid`: one of four places in a row is a boundary.
* `le_boundary`: stepping back passes no boundary.
* `wireId_longest`: the ID on the wire is the longest part that fits, three steps back at most. -/

namespace PaneRelay.Frame

open String.Pos (Raw)

/-- **The longest part** of a text from its start that ends with a character and has at most so many
bytes: any other such part is one of it too. -/
structure LongestWithin (limit : Nat) (s w : String) : Prop where
  start : ∃ t, s = w ++ t
  fits : w.utf8ByteSize ≤ limit
  longest : ∀ p t, s = p ++ t → p.utf8ByteSize ≤ limit → ∃ u, w = p ++ u

/-! ### Boundaries -/

/-- A boundary is where a part from the start ends. -/
theorem isValid_of_append {s p t : String} (h : s = p ++ t) : (Raw.mk p.utf8ByteSize).IsValid s := by
  subst h
  exact Raw.isValid_append.mpr (.inl Raw.isValid_rawEndPos)

/-- **One of four places in a row is a boundary.** -/
theorem exists_isValid (s : String) {n : Nat} (hn : n ≤ s.utf8ByteSize) :
    ∃ m, m ≤ n ∧ n < m + 4 ∧ (Raw.mk m).IsValid s := by
  induction s using String.push_induction with
  | empty =>
    have h0 : n = 0 := by simpa using hn
    exact ⟨0, by omega, by omega, Raw.isValid_zero⟩
  | push s c ih =>
    have hsize : (s.push c).utf8ByteSize = s.utf8ByteSize + c.utf8Size := by simp
    have hc : c.utf8Size ≤ 4 := c.utf8Size_le_four
    rcases Nat.lt_or_ge s.utf8ByteSize n with hlt | hle
    · -- the place lies in the last character, or behind it
      rcases Nat.lt_or_ge n (s.push c).utf8ByteSize with hin | hend
      · exact ⟨s.utf8ByteSize, by omega, by omega, Raw.isValid_push.mpr (.inl Raw.isValid_rawEndPos)⟩
      · obtain rfl : n = (s.push c).utf8ByteSize := Nat.le_antisymm hn hend
        exact ⟨_, Nat.le_refl _, by omega, Raw.isValid_rawEndPos⟩
    · obtain ⟨m, hm, hnm, hv⟩ := ih hle
      exact ⟨m, hm, hnm, Raw.isValid_push.mpr (.inl hv)⟩

/-- **Stepping back passes no boundary.** -/
theorem le_boundary {s : String} {m n : Nat} (hm : m ≤ n) (hv : (Raw.mk m).IsValid s) :
    m ≤ boundary s n := by
  induction n with
  | zero => omega
  | succ n ih =>
    unfold boundary
    split
    · exact hm
    · next hno =>
      have hne : m ≠ n + 1 := by
        rintro rfl
        exact hno (Raw.isValid_eq_true_iff.mpr hv)
      exact ih (by omega)

theorem lt_boundary_add {s : String} {n : Nat} (hn : n ≤ s.utf8ByteSize) : n < boundary s n + 4 := by
  obtain ⟨m, hm, hnm, hv⟩ := exists_isValid s hn
  have hle : m ≤ boundary s n := le_boundary hm hv
  omega

/-! ### The part before a boundary -/

theorem exists_append_takeBytes (s : String) (n : Nat) : ∃ t, s = takeBytes s n ++ t :=
  ⟨_, String.sliceTo_append_sliceFrom.symm⟩

/-- Of two parts from the start the shorter is a part of the longer. -/
theorem exists_append_of_le {p t w u : String} (h : p ++ t = w ++ u)
    (hle : p.utf8ByteSize ≤ w.utf8ByteSize) : ∃ v, w = p ++ v := by
  have hlist : p.toList ++ t.toList = w.toList ++ u.toList := by
    rw [← String.toList_append, h, String.toList_append]
  rcases List.append_eq_append_iff.mp hlist with ⟨l, hw, -⟩ | ⟨l, hp, -⟩
  · exact ⟨String.ofList l, String.toList_inj.mp (by simp [hw])⟩
  · -- nothing of the shorter is left behind the longer
    have hpw : p = w ++ String.ofList l := String.toList_inj.mp (by simp [hp])
    have hsize : p.utf8ByteSize = w.utf8ByteSize + (String.ofList l).utf8ByteSize := by
      rw [hpw, String.utf8ByteSize_append]
    have hempty : String.ofList l = "" := String.utf8ByteSize_eq_zero_iff.mp (by omega)
    exact ⟨"", by rw [hpw, hempty]; simp⟩

theorem takeBytes_longest (s : String) (n : Nat) : LongestWithin n s (takeBytes s n) := by
  obtain ⟨t, ht⟩ := exists_append_takeBytes s n
  refine ⟨⟨t, ht⟩, ?_, fun p u hp hfit => ?_⟩
  · rw [takeBytes_size]
    exact boundary_le s n
  · have hle : p.utf8ByteSize ≤ (takeBytes s n).utf8ByteSize := by
      rw [takeBytes_size]
      exact le_boundary hfit (isValid_of_append hp)
    exact exists_append_of_le (hp.symm.trans ht) hle

theorem LongestWithin.whole {limit : Nat} {s : String} (h : s.utf8ByteSize ≤ limit) :
    LongestWithin limit s s :=
  ⟨⟨"", by simp⟩, h, fun _ t hp _ => ⟨t, hp⟩⟩

/-! ### The ID on the wire -/

variable (id : PaneId)

theorem wireId_isLongest : LongestWithin 255 id (wireId id) := by
  unfold wireId
  split
  · next h => exact .whole h
  · exact takeBytes_longest id maxIdBytes

theorem le_wireId_of_isValid {n : Nat} (hv : (Raw.mk n).IsValid id) (hn : n ≤ 255) :
    n ≤ (wireId id).utf8ByteSize := by
  unfold wireId
  split
  · exact hv.le_utf8ByteSize
  · rw [takeBytes_size]
    exact le_boundary hn hv

theorem wireId_bytes : (wireId id).toUTF8 = id.toUTF8.extract 0 (wireId id).utf8ByteSize := by
  obtain ⟨t, ht⟩ := (wireId_isLongest id).start
  have hid : id.toUTF8 = (wireId id).toUTF8 ++ t.toUTF8 :=
    (congrArg String.toUTF8 ht).trans String.toByteArray_append
  rw [hid]
  exact (ByteArray.extract_append_eq_left rfl).symm

/-- The search starts at byte 255 and takes at most three steps back. -/
theorem wireId_found (h : 255 < id.utf8ByteSize) :
    ∃ back, back ≤ 3 ∧ (wireId id).utf8ByteSize = 255 - back ∧
      (Raw.mk (255 - back)).IsValid id ∧
      ∀ step, step < back → ¬ (Raw.mk (255 - step)).IsValid id := by
  have hlong : ¬ id.utf8ByteSize ≤ maxIdBytes := Nat.not_le.mpr h
  have hcut : (wireId id).utf8ByteSize = boundary id 255 := by
    rw [wireId, if_neg hlong, takeBytes_size]
    rfl
  have hle : boundary id 255 ≤ 255 := boundary_le id 255
  have hlt : 255 < boundary id 255 + 4 := lt_boundary_add (Nat.le_of_lt h)
  have hback : 255 - (255 - boundary id 255) = boundary id 255 := by omega
  refine ⟨255 - boundary id 255, by omega, by rw [hcut, hback], ?_, fun step hstep hv => ?_⟩
  · rw [hback]
    exact boundary_isValid id 255
  · have hmost : 255 - step ≤ boundary id 255 := le_boundary (Nat.sub_le 255 step) hv
    omega

/-- **An ID is cut as little as possible.** The ID on the wire is the longest part of it from its
start, up to a character boundary, that has at most 255 bytes; so no boundary within 255 bytes lies
behind it. It is the whole ID if that fits. Otherwise the boundary is found after at most three steps
back from byte 255, all of them from places that are none, so at least 252 bytes are kept. They are
the ID's own bytes, they are UTF-8, and the result is not cut again. -/
theorem wireId_longest :
    LongestWithin 255 id (wireId id) ∧
    (∀ n, (Raw.mk n).IsValid id → n ≤ 255 → n ≤ (wireId id).utf8ByteSize) ∧
    (id.utf8ByteSize ≤ 255 → wireId id = id) ∧
    (255 < id.utf8ByteSize →
      252 ≤ (wireId id).utf8ByteSize ∧ (wireId id).utf8ByteSize ≤ 255 ∧
      ∃ back, back ≤ 3 ∧ (wireId id).utf8ByteSize = 255 - back ∧
        (Raw.mk (255 - back)).IsValid id ∧
        ∀ step, step < back → ¬ (Raw.mk (255 - step)).IsValid id) ∧
    (wireId id).toUTF8 = id.toUTF8.extract 0 (wireId id).utf8ByteSize ∧
    (id.toUTF8.extract 0 (wireId id).utf8ByteSize).IsValidUTF8 ∧
    wireId (wireId id) = wireId id := by
  refine ⟨wireId_isLongest id, fun n => le_wireId_of_isValid id, fun h => if_pos h, fun h => ?_,
    wireId_bytes id, ?_, if_pos (wireId_size_le id)⟩
  · obtain ⟨back, hback, hsize, hfound⟩ := wireId_found id h
    exact ⟨by omega, by omega, back, hback, hsize, hfound⟩
  · rw [← wireId_bytes]
    exact (wireId id).isValidUTF8

end PaneRelay.Frame
