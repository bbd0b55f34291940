import PaneRelay.Proofs.Batcher.Work

/-! # Letting panes go

Panes that are no longer live are taken out of the map in one go, and each of them is released: what
waits for it is delivered, and a buffer in which nothing waits goes to the pool as long as there is
room. The other panes are not touched.

* `Retains`: what keeping the live panes does; `retains_of_reliable` holds in every state.
* `Removes`: to remove one pane is to keep all others.
* `run_roomy`: the pool never holds more buffers than it may.
* `retention_exact`: the three of them. -/

namespace PaneRelay.Batcher

/-! ### Keeping the live panes -/

/-- **Keeping is exact:** it lets go the tracked panes that are not live, delivers what waits for
them, and does nothing else. -/
structure Retains (b : Batcher) (live : PaneId → Bool) : Prop where
  /-- No call of the sink fails. -/
  succeeds : (b.retain live).1 = none
  /-- No pane is returned twice. -/
  once : (b.retain live).2.1.Nodup
  /-- The panes returned are those that were tracked and are not live. -/
  returned : ∀ p, p ∈ (b.retain live).2.1 ↔ p ∈ b.panes.keys ∧ live p = false
  /-- What waited for them is delivered, in one chunk for each, and nothing for the others. -/
  delivered : ∀ p, Delivers b (b.retain live).2.2 p
    (if live p then [] else piece (buffered b.panes p))
  /-- The live panes keep their buffers. -/
  kept : ∀ p, (b.retain live).2.2.panes.find? p = if live p then b.panes.find? p else none
  /-- Nothing but the panes, the pool and the sink changes. -/
  frame : ∃ pool sink, (b.retain live).2.2 = { b with panes := b.panes.keep live, pool, sink }
  /-- A second time there is nothing left to do. -/
  again : (b.retain live).2.2.retain live = (none, [], (b.retain live).2.2)

/-- What waits for the panes that are let go. -/
theorem dataOf_drained_retain (b : Batcher) (live : PaneId → Bool) (p : PaneId) :
    dataOf p (b.drained (.retain live)) =
      if live p then [] else piece (buffered b.panes p) := by
  have hbytes := bytesOf_chunksWhere_append (fun _ => true) (b.panes.keep fun q => !live q) p
  rw [buffered_clearAll, ByteArray.append_empty, buffered_keep] at hbytes
  show dataOf p (chunksWhere (fun _ => true) (b.panes.keep fun q => !live q)) = _
  rw [dataOf_chunksWhere, hbytes]
  cases live p <;> rfl

/-- Both halves of a retention, in terms of the panes that pass a test. -/
theorem retain_keep (b : Batcher) (live : PaneId → Bool) :
    b.retain live =
      (({ b with panes := b.panes.keep live }.release
          (b.panes.keep fun p => !live p).entries).1, (b.panes.keep fun p => !live p).keys,
        ({ b with panes := b.panes.keep live }.release
          (b.panes.keep fun p => !live p).entries).2) := rfl

/-- Whether a pane that is not tracked is live does not count. -/
theorem retain_congr {b : Batcher} {live live' : PaneId → Bool}
    (h : ∀ p ∈ b.panes.keys, live p = live' p) : b.retain live = b.retain live' := by
  have hkeep : b.panes.keep live = b.panes.keep live' := PaneMap.keep_congr h
  have hstale : (b.panes.keep fun p => !live p) = b.panes.keep fun p => !live' p :=
    PaneMap.keep_congr fun p hp => congrArg not (h p hp)
  rw [retain_keep, retain_keep, hkeep, hstale]

/-- Where all panes are live there is nothing to do. -/
theorem retain_of_live {b : Batcher} {live : PaneId → Bool}
    (h : ∀ p ∈ b.panes.keys, live p = true) : b.retain live = (none, [], b) := by
  have hkeep : b.panes.keep live = b.panes := (PaneMap.keep_congr h).trans (PaneMap.keep_all _)
  have hstale : (b.panes.keep fun p => !live p) = PaneMap.empty :=
    (PaneMap.keep_congr fun p hp => congrArg not (h p hp)).trans (PaneMap.keep_none _)
  rw [retain_keep, hkeep, hstale]
  rfl

/-- **Keeping the live panes is exact** in every state, in front of a reliable sink. -/
theorem retains_of_reliable {b : Batcher} (h : b.sink.Reliable) (live : PaneId → Bool) :
    Retains b live := by
  have heq := retain_eq h live
  have hpanes : (b.retain live).2.2.panes = b.panes.keep live := by rw [heq]
  refine ⟨by rw [heq], ?_, fun p => ?_, fun p => ?_, fun p => ?_, ⟨_, _, by rw [heq]⟩, ?_⟩
  · rw [heq]
    exact (b.panes.keep fun p => !live p).nodup
  · rw [heq, PaneMap.mem_keys_keep, Bool.not_eq_true']
  · rw [← dataOf_drained_retain]
    exact delivers_drain h (.retain live) p
  · rw [hpanes, PaneMap.find?_keep]
  · refine retain_of_live fun p hp => ?_
    rw [hpanes, PaneMap.mem_keys_keep] at hp
    exact hp.2

/-! ### Removing one pane -/

/-- **To remove a pane is to keep all others** that are tracked, and a second time there is nothing
left to do. -/
structure Removes (b : Batcher) (p : PaneId) : Prop where
  retain : let others := b.retain fun q => decide (q ∈ b.panes.keys ∧ q ≠ p)
    b.remove p = (others.1, others.2.2)
  again : (b.remove p).2.remove p = (none, (b.remove p).2)

theorem removes (b : Batcher) (p : PaneId) : Removes b p := by
  constructor
  · have hothers : (b.retain fun q => decide (q ∈ b.panes.keys ∧ q ≠ p)) =
        b.retain fun q => q != p := by
      refine retain_congr fun q hq => ?_
      rw [Bool.eq_iff_iff, decide_eq_true_iff, bne_iff_ne]
      exact and_iff_right hq
    intro others
    rw [show others = b.retain fun q => q != p from hothers]
    exact remove_eq_retain b p
  · have hgone : (b.remove p).2.panes.find? p = none := by
      show (b.drain (.remove p)).2.panes.find? p = none
      rw [drain_panes]
      exact PaneMap.find?_erase_self b.panes p
    generalize (b.remove p).2 = b' at hgone
    unfold remove
    rw [hgone]

/-! ### The pool -/

/-- The pool holds no more buffers than it may. -/
def Roomy (b : Batcher) : Prop := b.pool.length ≤ b.policy.poolCapacity

/-- **A buffer goes to the pool only if there is room.** -/
theorem Roomy.release {b : Batcher} (h : Roomy b) (l : List (PaneId × Buffer)) :
    Roomy (b.release l).2 := by
  induction l generalizing b with
  | nil => exact h
  | cons e l ih =>
    obtain ⟨p, buffer⟩ := e
    unfold Batcher.release
    split
    · refine ih ?_
      show (if b.pool.length < b.policy.poolCapacity then buffer.data :: b.pool else b.pool).length
        ≤ b.policy.poolCapacity
      split
      · next hlt => exact hlt
      · exact h
    · split
      · exact ih h
      · exact h

theorem Roomy.drain {b : Batcher} (h : Roomy b) (d : Drain) : Roomy (b.drain d).2 := by
  cases d with
  | round => exact h
  | last => exact h
  | retain live => exact Roomy.release (b := { b with panes := b.panes.keep live }) h _
  | remove p =>
    show Roomy (b.remove p).2
    unfold remove
    split
    · exact h
    · exact Roomy.release (b := { b with panes := b.panes.erase p }) h _

theorem Work.roomy {b b' : Batcher} (h : Work b b') (hb : Roomy b) : Roomy b' := by
  cases h with
  | aside later => exact hb
  | drain d => exact hb.drain d
  | heed => exact hb
  | shut => exact hb

theorem Roomy.write {b : Batcher} (h : Roomy b) (hb : b.Pooled) (p : PaneId) (d : ByteArray) :
    Roomy (b.write p d).2 := by
  have hw := written_of_write hb p d
  generalize b.write p d = r at hw
  cases hw with
  | nothing => exact h
  | passed => exact h
  | added solid stopped spare => exact Nat.le_trans spare.length_le h

/-- **The pool keeps within its bound,** and holds empty buffers only. -/
theorem run_roomy {b : Batcher} (ht : Tidy b) (h : Roomy b) (ms : List Move) :
    Roomy (b.run ms) ∧ (b.run ms).Pooled := by
  obtain ⟨htidy, hroomy⟩ := ht.run_induct Work.roomy (fun p d ht h => h.write ht.pool p d) h ms
  exact ⟨hroomy, htidy.pool⟩

/-- **Letting panes go is exact.** In every state, and whatever panes are live, keeping them in front
of a reliable sink lets go the others and nothing else; to remove one pane is to keep all others.
And at every moment of every run, whichever calls of the sink fail, the pool holds at most as many
buffers as the policy allows, all of them empty. -/
theorem retention_exact :
    (∀ (b : Batcher) (live : PaneId → Bool), b.sink.Reliable → Retains b live) ∧
    (∀ (b : Batcher) (p : PaneId), Removes b p) ∧
    ∀ (policy : BatchPolicy) (restart : RestartPolicy) (fate : Nat → Option String)
      (ms : List Move),
      let b := (fresh policy restart fate).run ms
      b.pool.length ≤ policy.poolCapacity ∧ ∀ d ∈ b.pool, d = ByteArray.empty := by
  refine ⟨fun b live h => retains_of_reliable h live, removes, ?_⟩
  intro policy restart fate ms b
  obtain ⟨hroomy, hpooled⟩ := run_roomy (tidy_fresh policy restart fate) (Nat.zero_le _) ms
  have hpolicy : b.policy = policy := run_policy (fresh policy restart fate) ms
  refine ⟨?_, hpooled⟩
  rw [← hpolicy]
  exact hroomy

/-- Of two panes that are let go one has bytes that wait; the buffer of the other was flushed
before, and goes to the pool. -/
theorem retention_exact_mixed :
    let ms : List Move := [.op .start, .turn, .op (.write "%0" "a".toUTF8),
      .op (.write "%1" "b".toUTF8), .op (.write "%2" "c".toUTF8), .op (.sleep 1000),
      .op (.write "%0" "d".toUTF8)]
    let b := (fresh default default).run ms
    let live : PaneId → Bool := fun p => p == "%2"
    let b' := (b.retain live).2.2
    b.sink.Reliable ∧ (b.retain live).2.1 = ["%0", "%1"] ∧ Delivers b b' "%0" ["d".toUTF8] ∧
      Delivers b b' "%1" [] ∧ b'.panes.find? "%2" = b.panes.find? "%2" ∧
      b'.pool = [ByteArray.empty] ∧ (b.remove "%1").2.remove "%1" = (none, (b.remove "%1").2) := by
  intro ms b live b'
  have hreliable : b.sink.Reliable := (run_reliable (tidy_fresh default default _) rfl ms).2
  have hretains := retention_exact.1 b live hreliable
  have hfirst := hretains.delivered "%0"
  have hsecond := hretains.delivered "%1"
  have hwaits : (if live "%0" then [] else piece (buffered b.panes "%0")) = ["d".toUTF8] := by
    decide +kernel
  have hnone : (if live "%1" then [] else piece (buffered b.panes "%1")) = [] := by
    decide +kernel
  rw [hwaits] at hfirst
  rw [hnone] at hsecond
  exact ⟨hreliable, by decide +kernel, hfirst, hsecond, hretains.kept "%2", by decide +kernel,
    (retention_exact.2.1 b "%1").again⟩

end PaneRelay.Batcher
