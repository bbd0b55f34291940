import PaneRelay.Frame

/-! # Frames decode to what was encoded

The length byte tells where the ID ends, so the parts of a frame can be taken apart again. An ID on
the wire is never longer than the length byte can tell, so every frame that was encoded decodes; and
bytes that decode are the frame of what they decode to, since nothing in them is left unread.

* `encode_head`, `encode_id`, `encode_data`: the parts of a frame.
* `decode_encode_wireId`: the ID on the wire comes back, with the data.
* `decode_encode`: an ID that the length byte can announce comes back as it was.
* `wireId_size_le`: the length byte can announce every ID on the wire.
* `decode_eq_ok_iff`: what decodes was encoded.
* `codec_exact`: which bytes are frames, of what, and why the others are none. -/

namespace PaneRelay.Frame

theorem encode_eq (id : PaneId) (data : ByteArray) :
    encode id data =
      [UInt8.ofNat (wireId id).toUTF8.size].toByteArray ++ ((wireId id).toUTF8 ++ data) :=
  ByteArray.append_assoc

theorem encode_size (id : PaneId) (data : ByteArray) :
    (encode id data).size = 1 + (wireId id).toUTF8.size + data.size := by
  rw [encode_eq, ByteArray.size_append, ByteArray.size_append, List.size_toByteArray]
  exact (Nat.add_assoc 1 _ _).symm

theorem encode_head (id : PaneId) (data : ByteArray) :
    (encode id data)[0]? = some (UInt8.ofNat (wireId id).toUTF8.size) := by
  have hlen : ([UInt8.ofNat (wireId id).toUTF8.size].toByteArray).size = 1 := List.size_toByteArray
  rw [encode_eq, getElem?_pos _ 0 (by rw [ByteArray.size_append]; omega),
    ByteArray.getElem_append_left (by omega)]
  rfl

theorem encode_id (id : PaneId) (data : ByteArray) :
    (encode id data).extract 1 (1 + (wireId id).toUTF8.size) = (wireId id).toUTF8 := by
  have h := ByteArray.extract_append_size_add'
    (a := [UInt8.ofNat (wireId id).toUTF8.size].toByteArray) (b := (wireId id).toUTF8 ++ data)
    (i := 0) (j := (wireId id).toUTF8.size) (k := 1) (by rw [List.size_toByteArray]; rfl)
  rw [encode_eq]
  exact h.trans (ByteArray.extract_append_eq_left rfl)

theorem encode_data (id : PaneId) (data : ByteArray) :
    (encode id data).extract (1 + (wireId id).toUTF8.size) (encode id data).size = data := by
  have hsize := encode_size id data
  refine ByteArray.extract_append_eq_right ?_ ?_
  · rw [ByteArray.size_append, List.size_toByteArray]
    rfl
  · rw [hsize, ByteArray.size_append, List.size_toByteArray]
    rfl

theorem fromUTF8?_toUTF8 (s : String) : String.fromUTF8? s.toUTF8 = some s := by
  have h : s.toUTF8.IsValidUTF8 := s.isValidUTF8
  unfold String.fromUTF8?
  rw [dif_pos h]
  rfl

/-- **A frame decodes** to the ID on the wire and the data. -/
theorem decode_encode_wireId {id : PaneId} (h : (wireId id).utf8ByteSize ≤ maxIdBytes)
    (data : ByteArray) : decode (encode id data) = .ok ⟨wireId id, data⟩ := by
  have hlen : (UInt8.ofNat (wireId id).toUTF8.size).toNat = (wireId id).toUTF8.size := by
    have h' : (wireId id).toUTF8.size ≤ 255 := h
    rw [UInt8.toNat_ofNat']
    omega
  have hsize := encode_size id data
  unfold decode
  rw [encode_head]
  simp only [hlen]
  rw [if_neg (by omega), encode_id, encode_data, fromUTF8?_toUTF8]

/-- **An ID that fits** comes back as it was. -/
theorem decode_encode {id : PaneId} (h : id.utf8ByteSize ≤ maxIdBytes) (data : ByteArray) :
    decode (encode id data) = .ok ⟨id, data⟩ := by
  have hw : wireId id = id := if_pos h
  have hle : (wireId id).utf8ByteSize ≤ maxIdBytes := by rwa [hw]
  rw [decode_encode_wireId hle, hw]

/-! ### The ID on the wire -/

theorem boundary_le (s : String) (n : Nat) : boundary s n ≤ n := by
  induction n with
  | zero => exact Nat.le_refl 0
  | succ n ih =>
    unfold boundary
    split
    · exact Nat.le_refl _
    · omega

theorem takeBytes_size (s : String) (n : Nat) : (takeBytes s n).utf8ByteSize = boundary s n := by
  unfold takeBytes
  rw [String.Slice.utf8ByteSize_copy, String.utf8ByteSize_sliceTo]

/-- **The length byte can announce the ID on the wire**, whatever the ID. -/
theorem wireId_size_le (id : PaneId) : (wireId id).utf8ByteSize ≤ maxIdBytes := by
  unfold wireId
  split
  · next h => exact h
  · rw [takeBytes_size]
    exact boundary_le id maxIdBytes

/-! ### Bytes that decode -/

/-- Decoding text from UTF-8 is exact: only the text's own bytes give it. -/
theorem fromUTF8?_eq_some {b : ByteArray} {s : String} :
    String.fromUTF8? b = some s ↔ s.toUTF8 = b := by
  constructor
  · intro h
    unfold String.fromUTF8? at h
    split at h
    · cases h
      rfl
    · cases h
  · rintro rfl
    exact fromUTF8?_toUTF8 s

theorem fromUTF8?_eq_none {b : ByteArray} : String.fromUTF8? b = none ↔ ¬ b.IsValidUTF8 := by
  unfold String.fromUTF8?
  split
  · next h => simp [h]
  · next h => simp [h]

theorem head_eq_none {f : ByteArray} : f[0]? = none ↔ f = ByteArray.empty := by
  rw [getElem?_eq_none_iff, ← ByteArray.size_eq_zero_iff]
  omega

/-- The length byte, the bytes that it announces, and the rest are all there is. -/
theorem parts {f : ByteArray} {head : UInt8} (h : f[0]? = some head)
    (hn : head.toNat ≤ f.size - 1) :
    [head].toByteArray ++ (f.extract 1 (1 + head.toNat) ++ f.extract (1 + head.toNat) f.size) =
      f := by
  obtain ⟨hpos, hget⟩ := getElem?_eq_some_iff.mp h
  have hhead : f.extract 0 1 = [head].toByteArray := by
    rw [← hget]
    exact ByteArray.extract_add_one (i := 0) (by omega)
  rw [← hhead, ← ByteArray.extract_eq_extract_append_extract _ (by omega) (by omega),
    ← ByteArray.extract_eq_extract_append_extract _ (by omega) (by omega)]
  exact ByteArray.extract_zero_size

/-- **What decodes was encoded**, and its ID fits the length byte. -/
theorem encode_of_decode {f : ByteArray} {id : PaneId} {data : ByteArray}
    (h : decode f = .ok ⟨id, data⟩) : id.utf8ByteSize ≤ maxIdBytes ∧ encode id data = f := by
  unfold decode at h
  cases hhead : f[0]? with
  | none => simp [hhead] at h
  | some head =>
    simp only [hhead] at h
    split at h
    · cases h
    next hle =>
    cases hid : String.fromUTF8? (f.extract 1 (1 + head.toNat)) with
    | none => simp [hid] at h
    | some s =>
      simp only [hid, Except.ok.injEq, Frame.mk.injEq] at h
      obtain ⟨rfl, rfl⟩ := h
      have hbytes := fromUTF8?_eq_some.mp hid
      have hsize : s.toUTF8.size = head.toNat := by
        rw [hbytes, ByteArray.size_extract]
        omega
      have hfit : s.utf8ByteSize ≤ maxIdBytes := by
        have := head.toNat_lt
        show s.toUTF8.size ≤ 255
        omega
      have hw : wireId s = s := if_pos hfit
      refine ⟨hfit, ?_⟩
      rw [encode_eq, hw, hsize, UInt8.ofNat_toNat, hbytes]
      exact parts hhead (by omega)

theorem decode_eq_ok_iff {f : ByteArray} {id : PaneId} {data : ByteArray} :
    decode f = .ok ⟨id, data⟩ ↔ id.utf8ByteSize ≤ maxIdBytes ∧ encode id data = f := by
  constructor
  · exact encode_of_decode
  · rintro ⟨hfit, rfl⟩
    exact decode_encode hfit data

/-! ### Bytes that do not decode -/

/-- **Why bytes are no frame**, by the order of the checks: is there a length byte, are there as many
bytes as it announces, are these UTF-8. -/
theorem decode_cases (f : ByteArray) :
    (f = ByteArray.empty ∧ decode f = .error .empty) ∨
    ∃ head, f[0]? = some head ∧
      ((f.size - 1 < head.toNat ∧ decode f = .error (.truncated head.toNat (f.size - 1))) ∨
        (head.toNat ≤ f.size - 1 ∧ ¬ (f.extract 1 (1 + head.toNat)).IsValidUTF8 ∧
          decode f = .error .invalidPaneId) ∨
        (head.toNat ≤ f.size - 1 ∧ (f.extract 1 (1 + head.toNat)).IsValidUTF8 ∧
          ∃ frame, decode f = .ok frame)) := by
  unfold decode
  cases hhead : f[0]? with
  | none => exact .inl ⟨head_eq_none.mp hhead, rfl⟩
  | some head =>
    refine .inr ⟨head, rfl, ?_⟩
    by_cases hn : f.size - 1 < head.toNat
    · exact .inl ⟨hn, by simp only [if_pos hn]⟩
    · have hle : head.toNat ≤ f.size - 1 := by omega
      simp only [if_neg hn]
      right
      cases hid : String.fromUTF8? (f.extract 1 (1 + head.toNat)) with
      | none => exact .inl ⟨hle, fromUTF8?_eq_none.mp hid, rfl⟩
      | some s =>
        refine .inr ⟨hle, ?_, _, rfl⟩
        rw [← fromUTF8?_eq_some.mp hid]
        exact s.isValidUTF8

section
variable {f : ByteArray}

theorem decode_eq_empty_iff : decode f = .error .empty ↔ f = ByteArray.empty := by
  rcases decode_cases f with ⟨rfl, hd⟩ | ⟨head, hhead, hd⟩
  · simp [hd]
  · have hne : f ≠ ByteArray.empty := fun he => by
      rw [head_eq_none.mpr he] at hhead
      cases hhead
    rcases hd with ⟨-, hd⟩ | ⟨-, -, hd⟩ | ⟨-, -, frame, hd⟩ <;> simp [hd, hne]

theorem decode_eq_truncated_iff {declared available : Nat} :
    decode f = .error (.truncated declared available) ↔
      ∃ head, f[0]? = some head ∧ declared = head.toNat ∧ available = f.size - 1 ∧
        f.size - 1 < head.toNat := by
  rcases decode_cases f with ⟨rfl, hd⟩ | ⟨head, hhead, hd⟩
  · simp [hd]
  · rcases hd with ⟨hn, hd⟩ | ⟨hn, -, hd⟩ | ⟨hn, -, frame, hd⟩
    · simp only [hd, hhead, Except.error.injEq, FrameError.truncated.injEq, Option.some.injEq,
        exists_eq_left']
      constructor
      · rintro ⟨rfl, rfl⟩
        exact ⟨rfl, rfl, hn⟩
      · rintro ⟨rfl, rfl, -⟩
        exact ⟨rfl, rfl⟩
    · simp [hd, hhead, hn]
    · simp [hd, hhead, hn]

theorem decode_eq_invalidPaneId_iff : decode f = .error .invalidPaneId ↔
    ∃ head, f[0]? = some head ∧ head.toNat ≤ f.size - 1 ∧
      ¬ (f.extract 1 (1 + head.toNat)).IsValidUTF8 := by
  rcases decode_cases f with ⟨rfl, hd⟩ | ⟨head, hhead, hd⟩
  · simp [hd]
  · rcases hd with ⟨hn, hd⟩ | ⟨hn, hv, hd⟩ | ⟨hn, hv, frame, hd⟩
    · have hle : ¬ head.toNat ≤ f.size - 1 := by omega
      simp [hd, hhead, hle]
    · simp [hd, hhead, hn, hv]
    · simp [hd, hhead, hv]

/-- **Bytes that do not decode** are the frame of nothing. -/
theorem decode_eq_error_iff : (∃ e, decode f = .error e) ↔ ∀ id data, encode id data ≠ f := by
  constructor
  · rintro ⟨e, he⟩ id data rfl
    rw [decode_encode_wireId (wireId_size_le id)] at he
    cases he
  · intro hno
    cases hd : decode f with
    | error e => exact ⟨e, rfl⟩
    | ok frame => exact absurd (encode_of_decode hd).2 (hno frame.pane frame.data)

end

/-- **Frames tell apart** what differs on the wire, and nothing else. -/
theorem encode_eq_iff {id id' : PaneId} {data data' : ByteArray} :
    encode id data = encode id' data' ↔ wireId id = wireId id' ∧ data = data' := by
  constructor
  · intro he
    have h := decode_encode_wireId (wireId_size_le id) data
    rw [he, decode_encode_wireId (wireId_size_le id')] at h
    obtain ⟨hw, hd⟩ := Frame.mk.inj (Except.ok.inj h)
    exact ⟨hw.symm, hd.symm⟩
  · rintro ⟨hw, rfl⟩
    rw [encode_eq, encode_eq, hw]

/-- **The codec is exact.** Every ID and all data come back from their frame, the ID as it is on the
wire, which is the ID itself if the length byte can announce it. Bytes that decode are the frame of
what they decode to, and such an ID is never too long. Bytes that do not decode are the frame of
nothing: either there are none, or the length byte announces more than follow it, or the bytes it
announces are not UTF-8. So two frames are the same exactly if their IDs on the wire and their data
are. -/
theorem codec_exact (id id' : PaneId) (data data' f : ByteArray) :
    decode (encode id data) = .ok ⟨wireId id, data⟩ ∧
    (id.utf8ByteSize ≤ 255 → wireId id = id) ∧
    (decode f = .ok ⟨id, data⟩ ↔ id.utf8ByteSize ≤ 255 ∧ encode id data = f) ∧
    ((∃ e, decode f = .error e) ↔ ∀ id data, encode id data ≠ f) ∧
    (decode f = .error .empty ↔ f = ByteArray.empty) ∧
    (∀ declared available, decode f = .error (.truncated declared available) ↔
      ∃ head, f[0]? = some head ∧ declared = head.toNat ∧ available = f.size - 1 ∧
        f.size - 1 < head.toNat) ∧
    (decode f = .error .invalidPaneId ↔
      ∃ head, f[0]? = some head ∧ head.toNat ≤ f.size - 1 ∧
        ¬ (f.extract 1 (1 + head.toNat)).IsValidUTF8) ∧
    (encode id data = encode id' data' ↔ wireId id = wireId id' ∧ data = data') :=
  ⟨decode_encode_wireId (wireId_size_le id) data, fun h => if_pos h, decode_eq_ok_iff,
    decode_eq_error_iff, decode_eq_empty_iff, fun _ _ => decode_eq_truncated_iff,
    decode_eq_invalidPaneId_iff, encode_eq_iff⟩

end PaneRelay.Frame
