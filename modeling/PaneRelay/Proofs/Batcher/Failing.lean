import PaneRelay.Proofs.Batcher.Run

/-! # Drains in front of a sink that fails

A drain empties all of its buffers before it hands over the first chunk, and the first call that
fails ends it. Its chunks fall in two: those it makes a call for, and those that are then nowhere
any more, neither at the sink nor in a buffer.

* `Sink.attempts`, `Sink.abandoned`: the two parts, `attempts_append_abandoned` puts them together.
* `Drain`: a flush round, the last flush, and the release of some panes or of one.
* `drain_eq`: all of them hand chunks to the sink and keep the other buffers.
* `safe_drain_iff`: which panes lose bytes without a call of their own that fails. -/

namespace PaneRelay.Batcher

namespace Sink

/-- **The calls** that chunks are handed over with: none after one that fails. -/
def attempts (s : Sink) (now : Nat) : List Chunk → List Call
  | [] => []
  | c :: cs =>
    ⟨now, c, (s.fate 0).isSome⟩ ::
      if (s.fate 0).isSome then [] else (s.deliver now c).2.attempts now cs

/-- **The chunks that are not handed over** because a call before them fails. -/
def abandoned (s : Sink) (now : Nat) : List Chunk → List Chunk
  | [] => []
  | c :: cs => if (s.fate 0).isSome then cs else (s.deliver now c).2.abandoned now cs

theorem deliverAll_calls (s : Sink) (now : Nat) (cs : List Chunk) :
    (s.deliverAll now cs).2.calls = s.calls ++ s.attempts now cs := by
  induction cs generalizing s with
  | nil => simp [deliverAll, attempts]
  | cons c cs ih =>
    unfold deliverAll attempts
    cases hf : s.fate 0 with
    | none =>
      have hd : s.deliver now c = (none, (s.deliver now c).2) := Prod.ext hf rfl
      rw [hd]
      simp only [Option.isSome_none, Bool.false_eq_true, if_false]
      rw [ih]
      simp [deliver, hf]
    | some e =>
      have hd : s.deliver now c = (some e, (s.deliver now c).2) := Prod.ext hf rfl
      rw [hd]
      simp [deliver, hf]

theorem attempts_append_abandoned (s : Sink) (now : Nat) (cs : List Chunk) :
    (s.attempts now cs).map Call.chunk ++ s.abandoned now cs = cs := by
  induction cs generalizing s with
  | nil => rfl
  | cons c cs ih =>
    unfold attempts abandoned
    by_cases hf : (s.fate 0).isSome = true
    · simp [hf]
    · simp [hf, ih]

/-- Nothing is abandoned iff no call but the last one may fail. -/
theorem abandoned_eq_nil_iff (s : Sink) (now : Nat) (cs : List Chunk) :
    s.abandoned now cs = [] ↔ ∀ k, k + 1 < cs.length → s.fate k = none := by
  induction cs generalizing s with
  | nil => simp [abandoned]
  | cons c cs ih =>
    unfold abandoned
    cases hf : s.fate 0 with
    | some e =>
      simp only [Option.isSome_some, if_true, List.length_cons]
      constructor
      · rintro rfl k hk
        simp at hk
      · intro h
        cases cs with
        | nil => rfl
        | cons d cs =>
          have h0 := h 0 (by simp)
          rw [hf] at h0
          cases h0
    | none =>
      simp only [Option.isSome_none, Bool.false_eq_true, if_false, List.length_cons]
      rw [ih]
      constructor
      · intro h k hk
        cases k with
        | zero => exact hf
        | succ k => exact h k (by omega)
      · intro h k hk
        exact h (k + 1) (by omega)

end Sink

/-! ### What arrives -/

/-- The chunks of the calls that did not fail. -/
def arrivals (calls : List Call) : List Chunk :=
  calls.filterMap fun c => if c.failed then none else some c.chunk

theorem Sink.chunks_eq (s : Sink) : s.chunks = arrivals s.calls := by
  unfold Sink.chunks Sink.arrived arrivals
  rw [List.map_filterMap]
  congr 1
  funext c
  cases c.failed <;> rfl

/-- **A pane is spared** by calls if none that was made for it failed. -/
def Spared (p : PaneId) (calls : List Call) : Prop :=
  ∀ c ∈ calls, c.chunk.pane = p → c.failed = false

instance (p : PaneId) (calls : List Call) : Decidable (Spared p calls) :=
  inferInstanceAs (Decidable (∀ c ∈ calls, c.chunk.pane = p → c.failed = false))

/-- What was handed over for a pane that was spared has arrived. -/
theorem Spared.bytesOf_arrivals {p : PaneId} {calls : List Call} (h : Spared p calls) :
    bytesOf p (arrivals calls) = bytesOf p (calls.map Call.chunk) := by
  induction calls with
  | nil => rfl
  | cons c calls ih =>
    have hrest := ih fun d hd => h d (List.mem_cons_of_mem _ hd)
    have hc := h c List.mem_cons_self
    rw [List.map_cons, bytesOf_cons, ← hrest]
    unfold arrivals
    rw [List.filterMap_cons]
    cases hf : c.failed with
    | false =>
      simp only [Bool.false_eq_true, if_false]
      rw [bytesOf_cons]
    | true =>
      have hne : c.chunk.pane ≠ p := by
        intro hp
        rw [hc hp] at hf
        cases hf
      simp only [if_true]
      rw [if_neg hne, ByteArray.empty_append]

/-! ### The drains -/

/-- **What drains buffers.** -/
inductive Drain where
  /-- A flush round. -/
  | round
  /-- The last flush of the loop's task, and that of a stop. -/
  | last
  /-- The release of all panes but those that pass a test. -/
  | retain (live : PaneId → Bool)
  /-- The release of one pane. -/
  | remove (p : PaneId)

/-- The state after a drain, and the text of the failure that ended it, if one did. -/
def drain (b : Batcher) : Drain → Option String × Batcher
  | .round => b.flushDue
  | .last => b.flushAll
  | .retain live => ((b.retain live).1, (b.retain live).2.2)
  | .remove p => b.remove p

/-- The chunks that a drain takes out of the buffers. -/
def drained (b : Batcher) : Drain → List Chunk
  | .round => chunksWhere (Buffer.isDue b.policy b.now) b.panes
  | .last => chunksWhere (fun _ => true) b.panes
  | .retain live => chunksWhere (fun _ => true) (b.panes.keep fun q => !live q)
  | .remove p => chunksWhere (fun _ => true) (b.panes.keep fun q => !(q != p))

/-- The buffers after a drain. -/
def remaining (b : Batcher) : Drain → PaneMap Buffer
  | .round => clearWhere (Buffer.isDue b.policy b.now) b.panes
  | .last => clearWhere (fun _ => true) b.panes
  | .retain live => b.panes.keep live
  | .remove p => b.panes.keep fun q => q != p

/-- Buffers that are let go are handed over in order, and those that were empty join the pool. -/
theorem release_deliverAll (b : Batcher) (l : List (PaneId × Buffer)) :
    ∃ pool, (∀ d ∈ pool, d ∈ b.pool ∨ d = ByteArray.empty) ∧
      b.release l = ((b.sink.deliverAll b.now (leftovers l)).1,
        { b with pool, sink := (b.sink.deliverAll b.now (leftovers l)).2 }) := by
  induction l generalizing b with
  | nil => exact ⟨b.pool, fun d hd => .inl hd, rfl⟩
  | cons e l ih =>
    obtain ⟨p, buffer⟩ := e
    unfold release
    rw [leftovers_cons]
    by_cases hi : buffer.isIdle = true
    · -- an empty buffer makes no call, and may join the pool
      simp only [hi, if_true, List.nil_append]
      obtain ⟨pool, hpool, hr⟩ := ih { b with
        pool := if b.pool.length < b.policy.poolCapacity then buffer.data :: b.pool else b.pool }
      refine ⟨pool, fun d hd => ?_, hr⟩
      rcases hpool d hd with h | h
      · simp only at h
        split at h
        · rcases List.mem_cons.mp h with rfl | h
          · exact .inr (Buffer.isIdle_iff.mp hi)
          · exact .inl h
        · exact .inl h
      · exact .inr h
    · simp only [hi, Bool.false_eq_true, if_false, List.singleton_append, Sink.deliverAll]
      cases hd : b.sink.deliver b.now ⟨p, buffer.data⟩ with
      | mk e sink =>
        cases e with
        | none => exact ih { b with sink }
        | some e => exact ⟨b.pool, fun d hd => .inl hd, rfl⟩

/-- **A drain** takes its chunks out of the buffers, hands them to the sink, and does nothing else
but to put empty buffers into the pool. -/
theorem drain_eq (b : Batcher) (d : Drain) :
    ∃ pool, (∀ e ∈ pool, e ∈ b.pool ∨ e = ByteArray.empty) ∧
      b.drain d = ((b.sink.deliverAll b.now (b.drained d)).1,
        { b with panes := b.remaining d, pool
                 sink := (b.sink.deliverAll b.now (b.drained d)).2 }) := by
  have hretain : ∀ live, ∃ pool, (∀ e ∈ pool, e ∈ b.pool ∨ e = ByteArray.empty) ∧
      b.drain (.retain live) = ((b.sink.deliverAll b.now (b.drained (.retain live))).1,
        { b with panes := b.remaining (.retain live), pool
                 sink := (b.sink.deliverAll b.now (b.drained (.retain live))).2 }) := by
    intro live
    obtain ⟨pool, hpool, hr⟩ := release_deliverAll { b with panes := b.panes.keep live }
      (b.panes.keep fun q => !live q).entries
    refine ⟨pool, hpool, ?_⟩
    rw [leftovers_entries] at hr
    unfold drain retain
    simp only [PaneMap.keep] at hr ⊢
    rw [hr]
    rfl
  cases d with
  | round => exact ⟨b.pool, fun e he => .inl he, rfl⟩
  | last => exact ⟨b.pool, fun e he => .inl he, rfl⟩
  | retain live => exact hretain live
  | remove p =>
    obtain ⟨pool, hpool, hr⟩ := hretain fun q => q != p
    refine ⟨pool, hpool, ?_⟩
    rw [← show b.drain (.retain fun q => q != p) = b.drain (.remove p) from
      (remove_eq_retain b p).symm]
    exact hr

theorem drain_calls (b : Batcher) (d : Drain) :
    (b.drain d).2.sink.calls = b.sink.calls ++ b.sink.attempts b.now (b.drained d) := by
  obtain ⟨pool, -, hd⟩ := drain_eq b d
  rw [hd]
  exact b.sink.deliverAll_calls b.now _

theorem drain_panes (b : Batcher) (d : Drain) : (b.drain d).2.panes = b.remaining d := by
  obtain ⟨pool, -, hd⟩ := drain_eq b d
  rw [hd]

theorem drained_solid {b : Batcher} {d : Drain} {c : Chunk} (h : c ∈ b.drained d) :
    c.data ≠ ByteArray.empty := by
  obtain ⟨ready, panes, hd⟩ : ∃ ready panes, b.drained d = chunksWhere ready panes := by
    cases d with
    | round => exact ⟨Buffer.isDue b.policy b.now, b.panes, rfl⟩
    | _ => exact ⟨fun _ => true, _, rfl⟩
  rw [hd] at h
  exact chunksWhere_ne_empty h

/-- The bytes of a pane before a drain, in the chunks and in the buffers after it. -/
theorem bytesOf_drained (b : Batcher) (d : Drain) (p : PaneId) :
    bytesOf p (b.drained d) ++ buffered (b.remaining d) p = buffered b.panes p := by
  cases d with
  | round => exact bytesOf_chunksWhere_append _ _ p
  | last => exact bytesOf_chunksWhere_append (fun _ => true) _ p
  | retain live => exact bytesOf_keep _ live p
  | remove q => exact bytesOf_keep _ (fun r => r != q) p

/-- The release of one pane hands over one chunk at most. -/
theorem abandoned_remove (b : Batcher) (p : PaneId) :
    b.sink.abandoned b.now (b.drained (.remove p)) = [] := by
  have hlen : (b.drained (.remove p)).length ≤ 1 := by
    show (chunksWhere (fun _ => true) (b.panes.keep fun q => !(q != p))).length ≤ 1
    unfold chunksWhere
    rw [PaneMap.entries_keep_eq]
    refine Nat.le_trans (List.length_filterMap_le _ _) ?_
    cases b.panes.find? p <;> simp
  rw [Sink.abandoned_eq_nil_iff]
  intro k hk
  omega

/-! ### What is lost -/

/-- **The bytes of a pane that are safe:** those that arrived, and then those that wait. -/
def safe (b : Batcher) (p : PaneId) : ByteArray := bytesOf p b.sink.chunks ++ buffered b.panes p

theorem bytesOf_eq_empty_iff {p : PaneId} {cs : List Chunk}
    (hsolid : ∀ c ∈ cs, c.data ≠ ByteArray.empty) :
    bytesOf p cs = ByteArray.empty ↔ ∀ c ∈ cs, c.pane ≠ p := by
  refine ⟨fun h => ?_, bytesOf_eq_empty⟩
  induction cs with
  | nil => simp
  | cons c cs ih =>
    rw [bytesOf_cons, ByteArray.append_eq_empty_iff] at h
    intro d hd
    rcases List.mem_cons.mp hd with rfl | hd
    · rintro rfl
      rw [if_pos rfl] at h
      exact hsolid d List.mem_cons_self h.1
    · exact ih (fun c hc => hsolid c (List.mem_cons_of_mem _ hc)) h.2 d hd

/-- What a spared pane has after a drain is what it had, less the chunks that were abandoned. -/
theorem safe_drain {b : Batcher} {d : Drain} {p : PaneId}
    (h : Spared p (b.sink.attempts b.now (b.drained d))) :
    (b.drain d).2.safe p = bytesOf p b.sink.chunks ++
        (bytesOf p ((b.sink.attempts b.now (b.drained d)).map Call.chunk) ++
          buffered (b.remaining d) p) := by
  unfold safe
  rw [Sink.chunks_eq, drain_calls, drain_panes]
  have harr : arrivals (b.sink.calls ++ b.sink.attempts b.now (b.drained d)) =
      b.sink.chunks ++ arrivals (b.sink.attempts b.now (b.drained d)) := by
    rw [Sink.chunks_eq]
    exact List.filterMap_append
  rw [harr, bytesOf_append, h.bytesOf_arrivals, ByteArray.append_assoc]

/-- **What a failing call costs.** A drain stops at the first call that fails, and leaves the chunks
behind it neither delivered nor in a buffer. So a pane that no failing call was made for keeps its
bytes iff none of the abandoned chunks is its own, and no pane at all is in this danger iff no call
but the last one fails. -/
theorem safe_drain_iff (b : Batcher) (d : Drain) :
    let made := b.sink.attempts b.now (b.drained d)
    let lost := b.sink.abandoned b.now (b.drained d)
    (b.drain d).2.sink.calls = b.sink.calls ++ made ∧
      (lost = [] ↔ ∀ k, k + 1 < (b.drained d).length → b.sink.fate k = none) ∧
      ∀ p, Spared p made → ((b.drain d).2.safe p = b.safe p ↔ ∀ c ∈ lost, c.pane ≠ p) := by
  intro made lost
  refine ⟨drain_calls b d, b.sink.abandoned_eq_nil_iff b.now _, fun p hp => ?_⟩
  have hparts : made.map Call.chunk ++ lost = b.drained d :=
    b.sink.attempts_append_abandoned b.now _
  have hsolid : ∀ c ∈ lost, c.data ≠ ByteArray.empty := by
    intro c hc
    refine drained_solid (b := b) (d := d) ?_
    rw [← hparts]
    exact List.mem_append_right _ hc
  have hbefore : b.safe p = bytesOf p b.sink.chunks ++
      (bytesOf p (made.map Call.chunk) ++ (bytesOf p lost ++ buffered (b.remaining d) p)) := by
    unfold safe
    rw [← bytesOf_drained b d p, ← hparts, bytesOf_append, ByteArray.append_assoc]
  -- the two sides differ by the bytes of the lost chunks, and no chunk is empty
  rw [safe_drain hp, hbefore, ByteArray.append_right_inj, ByteArray.append_right_inj,
    ← bytesOf_eq_empty_iff hsolid]
  constructor
  · intro h
    have hsize := congrArg ByteArray.size h
    rw [ByteArray.size_append] at hsize
    exact ByteArray.size_eq_zero_iff.mp (by omega)
  · intro h
    rw [h, ByteArray.empty_append]

/-- The second half of a stop is a drain. -/
example (b : Batcher) :
    b.stop = ({ settle { b with cancelled := true } with stopped := true } : Batcher).drain .last :=
  rfl

/-- A stop with two panes that wait, the first of which makes the sink fail: the bytes of the second
are lost, although no call for it failed, and another stop does not bring them back. -/
theorem stop_abandons :
    let fate := fun k => if k = 0 then some "sink failed" else none
    let b := (fresh (.ofSection {}) (.ofSection {}) fate).run
      [.op (.write "%0" ⟨#[111, 110, 101]⟩), .op (.write "%1" ⟨#[116, 119, 111]⟩)]
    let b' := b.run [.op .stop, .op .stop]
    b.safe "%1" = ⟨#[116, 119, 111]⟩ ∧ Spared "%1" b'.sink.calls ∧
      b'.safe "%1" = ByteArray.empty := by
  decide +kernel

end PaneRelay.Batcher
