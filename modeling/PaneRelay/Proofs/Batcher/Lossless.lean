import PaneRelay.Proofs.Batcher.Run

/-! # Nothing is lost, and nothing changes its place

What was delivered for a pane, followed by what waits for it, is what was written to it. The
invariant behind this, `Balanced`, also says that the pool holds empty buffers only, for a recycled
buffer with bytes in it would hand them to another pane, and that nothing waits any more once output
passes straight through, for it would be overtaken.

* `Balanced.drain`, `Balanced.keep`, `Balanced.write`: what keeps the books balanced.
* `Balanced.turned`, `Balanced.apply`: a step of the loop, and an operation.
* `delivered_append_buffered`: the books after any run. -/

namespace PaneRelay.Batcher

/-- The chunks that an operation hands in. -/
def Op.output : Op → List Chunk
  | .write p data => [⟨p, data⟩]
  | .writes items => items.map fun (p, data) => ⟨p, data⟩
  | _ => []

/-- The chunks that a move hands in. -/
def Move.output : Move → List Chunk
  | .op o => o.output
  | _ => []

/-- **The books of a batcher balance** with what was written. -/
structure Balanced (b : Batcher) (written : List Chunk) : Prop where
  /-- No call of the sink fails. -/
  reliable : b.sink.Reliable
  /-- What arrived and what waits is what was written. -/
  bytes : ∀ p, bytesOf p b.sink.chunks ++ buffered b.panes p = bytesOf p written
  /-- Every chunk that arrived holds bytes. -/
  solid : ∀ c ∈ b.sink.chunks, c.data ≠ ByteArray.empty
  /-- Buffers in the pool are empty. -/
  pool : ∀ d ∈ b.pool, d = ByteArray.empty
  /-- Nothing waits once output passes through. -/
  passing : b.stopped = true → ∀ p, buffered b.panes p = ByteArray.empty

namespace Balanced

variable {b : Batcher} {w : List Chunk}

theorem fresh (policy : BatchPolicy) (restart : RestartPolicy) :
    Balanced (Batcher.fresh policy restart) [] where
  reliable := rfl
  bytes _ := rfl
  solid c hc := by cases hc
  pool d hd := by cases hd
  passing h := by cases h

/-- The clock, the loop and the flags of the batcher do not count. -/
theorem of_eq (h : Balanced b w) {b' : Batcher} (hsink : b'.sink = b.sink)
    (hpanes : b'.panes = b.panes) (hpool : b'.pool = b.pool) (hstopped : b'.stopped = b.stopped) :
    Balanced b' w := by
  obtain ⟨h1, h2, h3, h4, h5⟩ := h
  rw [← hsink] at h1 h2 h3
  rw [← hpanes] at h2 h5
  rw [← hpool] at h4
  rw [← hstopped] at h5
  exact ⟨h1, h2, h3, h4, h5⟩

/-! ### Draining -/

/-- **A drain** of the buffers that are ready. -/
theorem drain (h : Balanced b w) (ready : Buffer → Bool) (now : Nat) :
    Balanced { b with panes := clearWhere ready b.panes
                      sink := b.sink.took now (chunksWhere ready b.panes) } w where
  reliable := h.reliable.took now _
  bytes p := by
    simp only [Sink.chunks_took, bytesOf_append]
    rw [ByteArray.append_assoc, bytesOf_chunksWhere_append]
    exact h.bytes p
  solid c hc := by
    simp only [Sink.chunks_took, List.mem_append] at hc
    rcases hc with hc | hc
    · exact h.solid c hc
    · exact chunksWhere_ne_empty hc
  pool := h.pool
  passing hs p := by
    have h0 := h.passing hs p
    rw [← bytesOf_chunksWhere_append ready, ByteArray.append_eq_empty_iff] at h0
    exact h0.2

theorem flushDue (h : Balanced b w) : Balanced b.flushDue.2 w := by
  rw [flushDue_eq h.reliable]; exact h.drain _ _

theorem flushAll (h : Balanced b w) : Balanced b.flushAll.2 w := by
  rw [flushAll_eq h.reliable]; exact h.drain _ _

/-- **Panes that are let go** take nothing with them. -/
theorem retain (h : Balanced b w) (live : PaneId → Bool) : Balanced (b.retain live).2.2 w := by
  rw [retain_eq h.reliable]
  constructor
  · exact h.reliable.took _ _
  · intro p
    simp only [Sink.chunks_took, bytesOf_append]
    rw [ByteArray.append_assoc, bytesOf_keep]
    exact h.bytes p
  · intro c hc
    simp only [Sink.chunks_took, List.mem_append] at hc
    rcases hc with hc | hc
    · exact h.solid c hc
    · exact chunksWhere_ne_empty hc
  · exact recycled_empty _ _ h.pool
  · intro hs p
    simp only [buffered_keep, h.passing hs p, ite_self]

theorem remove (h : Balanced b w) (p : PaneId) : Balanced (b.remove p).2 w := by
  rw [remove_eq_retain]; exact h.retain _

/-! ### Writing -/

theorem signal (h : Balanced b w) (first crossed : Bool) :
    Balanced (b.signal first crossed) w := by
  unfold Batcher.signal
  split
  · exact h.of_eq rfl rfl rfl rfl
  · exact h

/-- Output that waits. -/
theorem append (h : Balanced b w) (hs : b.stopped = false) (p : PaneId) (d : ByteArray) :
    Balanced (b.append p d).1 (w ++ [⟨p, d⟩]) := by
  obtain ⟨pool, crossed, hpool, ha⟩ := append_eq h.pool p d
  rw [ha]
  refine ⟨h.reliable, fun q => ?_, h.solid, hpool, fun h' => ?_⟩
  · rw [bytesOf_append, bytesOf_singleton, ← h.bytes q, ByteArray.append_assoc]
    congr 1
    rw [buffered, PaneMap.find?_insert]
    by_cases hq : q = p
    · subst hq
      rw [if_pos rfl, if_pos rfl, ← bufferOf_data]
      rfl
    · rw [if_neg hq, if_neg (Ne.symm hq), ByteArray.append_empty]
      rfl
  · rw [hs] at h'
    cases h'

/-- Output that passes through. -/
theorem pass (h : Balanced b w) (hs : b.stopped = true) (p : PaneId) {d : ByteArray}
    (hd : d ≠ ByteArray.empty) :
    Balanced { b with sink := b.sink.took b.now [⟨p, d⟩] } (w ++ [⟨p, d⟩]) := by
  refine ⟨h.reliable.took _ _, fun q => ?_, fun c hc => ?_, h.pool, h.passing⟩
  · simp only [Sink.chunks_took, bytesOf_append, ← h.bytes q, h.passing hs q,
      ByteArray.append_empty]
  · simp only [Sink.chunks_took, List.mem_append, List.mem_singleton] at hc
    rcases hc with hc | rfl
    · exact h.solid c hc
    · exact hd

/-- **Output of a pane** waits, or passes through. -/
theorem write (h : Balanced b w) (p : PaneId) (d : ByteArray) :
    (b.write p d).1 = none ∧ Balanced (b.write p d).2 (w ++ [⟨p, d⟩]) := by
  unfold Batcher.write
  by_cases hd : d.isEmpty = true
  · refine ⟨by simp [hd], ?_⟩
    simp only [hd, if_true]
    refine ⟨h.reliable, fun q => ?_, h.solid, h.pool, h.passing⟩
    rw [bytesOf_append, bytesOf_singleton, isEmpty_iff.mp hd, ite_self, ByteArray.append_empty]
    exact h.bytes q
  by_cases hs : b.stopped = true
  · rw [if_neg hd, if_pos hs, Sink.deliver_eq h.reliable]
    exact ⟨rfl, h.pass hs p fun he => hd (isEmpty_iff.mpr he)⟩
  · rw [if_neg hd, if_neg hs]
    exact ⟨rfl, (h.append (by simpa using hs) p d).signal _ _⟩

theorem writeAll (h : Balanced b w) (items : List (PaneId × ByteArray)) :
    Balanced (b.writeAll items).2 (w ++ items.map fun (p, d) => ⟨p, d⟩) := by
  induction items generalizing b w with
  | nil => simpa [Batcher.writeAll] using h
  | cons e items ih =>
    obtain ⟨p, d⟩ := e
    obtain ⟨hnone, hb⟩ := h.write p d
    unfold Batcher.writeAll
    generalize b.write p d = r at hnone hb
    obtain ⟨e, b'⟩ := r
    cases hnone
    simpa [List.append_assoc] using ih hb

/-! ### The loop -/

theorem look (h : Balanced b w) (loop : Supervisor.State) (period : Nat) :
    Balanced (b.look loop period) w := by
  have hf := flushDue_eq h.reliable
  have hb := h.flushDue
  unfold Batcher.look
  rw [hf] at hb ⊢
  exact hb.of_eq rfl rfl rfl rfl

/-- **A step of the loop.** -/
theorem turned (h : Balanced b w) {b' : Batcher} (ht : Turned b b') : Balanced b' w := by
  cases ht with
  | ended => exact h.flushAll.of_eq rfl rfl rfl rfl
  | linked => exact h.of_eq rfl rfl rfl rfl
  | dropped => exact h.of_eq rfl rfl rfl rfl
  | began => exact h.of_eq rfl rfl rfl rfl
  | woken =>
    have h' : Balanced { b with wake := false } w := h.of_eq rfl rfl rfl rfl
    exact h'.look _ _
  | ticked => exact h.look _ _
  | resumed => exact h.of_eq rfl rfl rfl rfl

theorem turns (h : Balanced b w) (n : Nat) : Balanced (Batcher.turns n b) w := by
  induction n generalizing b with
  | zero => exact h
  | succ n ih =>
    unfold Batcher.turns
    split
    · next b' ht => exact ih (h.turned (turned_of_turn ht))
    · exact h

theorem advanceTo (h : Balanced b w) (fuel till : Nat) :
    Balanced (Batcher.advanceTo fuel till b) w := by
  induction fuel generalizing b with
  | zero => exact h.of_eq rfl rfl rfl rfl
  | succ fuel ih =>
    unfold Batcher.advanceTo
    split
    · next t _ =>
      split
      · have h' : Balanced { b with now := max b.now t } w := h.of_eq rfl rfl rfl rfl
        exact ih (h'.turns 16)
      · exact h.of_eq rfl rfl rfl rfl
    · exact h.of_eq rfl rfl rfl rfl

theorem start (h : Balanced b w) : Balanced b.start w := by
  unfold Batcher.start
  split
  · split
    · exact h
    · exact h.of_eq rfl rfl rfl rfl
  · exact h

/-- The last flush leaves nothing behind that could be overtaken. -/
theorem stop (h : Balanced b w) : Balanced b.stop.2 w := by
  have h' : Balanced { b with cancelled := true } w := h.of_eq rfl rfl rfl rfl
  obtain ⟨h1, h2, h3, h4, -⟩ := (h'.turns 16).flushAll
  unfold Batcher.stop settle
  rw [flushAll_eq (h'.turns 16).reliable] at h1 h2 h3 h4
  rw [flushAll_eq (by exact (h'.turns 16).reliable)]
  exact ⟨h1, h2, h3, h4, fun _ => buffered_clearAll _⟩

/-- **An operation.** -/
theorem apply (h : Balanced b w) (o : Op) : Balanced (b.apply o).2 (w ++ o.output) := by
  have hnone : ∀ b', Balanced b' w → Balanced b' (w ++ []) := fun b' h' => by
    rwa [List.append_nil]
  cases o with
  | start => exact hnone _ h.start
  | write p d => exact (h.write p d).2
  | writes items => exact h.writeAll items
  | sleep ms => exact hnone _ (h.advanceTo _ _)
  | remove p => exact hnone _ (h.remove p)
  | retain live => exact hnone _ (h.retain _)
  | cancel => exact hnone _ (h.of_eq rfl rfl rfl rfl)
  | stop => exact hnone _ h.stop

theorem move (h : Balanced b w) (m : Move) : Balanced (b.move m) (w ++ m.output) := by
  have hnone : ∀ b', Balanced b' w → Balanced b' (w ++ []) := fun b' h' => by
    rwa [List.append_nil]
  cases m with
  | op o => exact h.apply o
  | turn =>
    refine hnone _ ?_
    cases ht : b.turn with
    | none => simpa [Batcher.move, ht] using h
    | some b' => simpa [Batcher.move, ht] using h.turned (turned_of_turn ht)
  | tick ms => exact hnone _ (h.of_eq rfl rfl rfl rfl)
  | halt => exact hnone _ (h.of_eq rfl rfl rfl rfl)

theorem run (h : Balanced b w) (ms : List Move) :
    Balanced (b.run ms) (w ++ ms.flatMap Move.output) := by
  induction ms generalizing b w with
  | nil => simpa using h
  | cons m ms ih => simpa [List.append_assoc] using ih (h.move m)

end Balanced

/-- **Lossless, in order, and pane by pane.** Whatever operations were asked of a batcher whose sink
never fails, and however the steps of the loop fell between them, what arrived for a pane followed
by what waits for it is what was written to it, and no chunk that arrived is empty. -/
theorem delivered_append_buffered (policy : BatchPolicy) (restart : RestartPolicy)
    (ms : List Move) :
    let b := (fresh policy restart).run ms
    (∀ p, bytesOf p b.sink.chunks ++ buffered b.panes p = bytesOf p (ms.flatMap Move.output)) ∧
      ∀ c ∈ b.sink.chunks, c.data ≠ ByteArray.empty := by
  have h := (Balanced.fresh policy restart).run ms
  exact ⟨h.bytes, h.solid⟩

end PaneRelay.Batcher
