import PaneRelay.PaneMap

/-! # Wire frames

A frame carries output of one pane to the consumer: one length byte, the pane ID in UTF-8, then the
raw data up to the end of the message.

* `wireId`: the ID as it fits the length byte, cut at the last character boundary within 255 bytes.
* `encode`, `decode`: a frame and its parts.
* `FrameError`: why bytes are no frame. -/

namespace PaneRelay

/-- **A decoded frame.** -/
structure Frame where
  /-- The pane the data belongs to. -/
  pane : PaneId
  /-- The data, which may be empty. -/
  data : ByteArray

namespace Frame

/-- Why bytes are no frame. -/
inductive FrameError where
  /-- There is not even a length byte. -/
  | empty
  /-- The length byte declares more bytes than follow it. -/
  | truncated (declared available : Nat)
  /-- The bytes of the pane ID are not UTF-8. -/
  | invalidPaneId
deriving DecidableEq, Repr

/-- The wording of an error. -/
def FrameError.message : FrameError → String
  | .empty => "empty frame"
  | .truncated d a => s!"frame declares a {d}-byte pane ID but only {a} bytes follow"
  | .invalidPaneId => "pane ID is not valid UTF-8"

/-- The longest ID, in bytes, that the length byte can announce. -/
def maxIdBytes : Nat := 255

/-! ## The ID on the wire -/

/-- The last character boundary of `s` at or before byte `n`, found by stepping back from `n`. -/
def boundary (s : String) : Nat → Nat
  | 0 => 0
  | n + 1 => if (String.Pos.Raw.mk (n + 1)).isValid s then n + 1 else boundary s n

theorem boundary_isValid (s : String) (n : Nat) : (String.Pos.Raw.mk (boundary s n)).IsValid s := by
  induction n with
  | zero => exact String.Pos.Raw.isValid_zero
  | succ n ih =>
    unfold boundary
    split
    · next h => exact String.Pos.Raw.isValid_eq_true_iff.mp h
    · exact ih

/-- The part of `s` before byte `n`, shortened to a character boundary. -/
def takeBytes (s : String) (n : Nat) : String :=
  (s.sliceTo ⟨⟨boundary s n⟩, boundary_isValid s n⟩).copy

/-- **The wire ID:** the ID itself if the length byte can announce it, else its longest part from
the start that it can. -/
def wireId (id : PaneId) : PaneId :=
  if id.utf8ByteSize ≤ maxIdBytes then id else takeBytes id maxIdBytes

/-! ## Encoding and decoding -/

/-- The frame of a pane's data. -/
def encode (id : PaneId) (data : ByteArray) : ByteArray :=
  let wire := (wireId id).toUTF8
  [UInt8.ofNat wire.size].toByteArray ++ wire ++ data

/-- Reads a frame. The declared length is checked before the ID's bytes are looked at. -/
def decode (f : ByteArray) : Except FrameError Frame :=
  match f[0]? with
  | none => .error .empty
  | some head =>
    let declared := head.toNat
    let available := f.size - 1
    if available < declared then .error (.truncated declared available)
    else
      match String.fromUTF8? (f.extract 1 (1 + declared)) with
      | none => .error .invalidPaneId
      | some id => .ok ⟨id, f.extract (1 + declared) f.size⟩

end Frame

end PaneRelay
