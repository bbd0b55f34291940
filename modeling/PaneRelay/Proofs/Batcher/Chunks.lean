import PaneRelay.Batcher.Basic

/-! # Chunks and buffers, pane by pane

What a list of chunks means for a pane is the concatenation of its data, `bytesOf`; what waits for a
pane is `buffered`. Draining moves bytes from the second to the first and leaves their order alone.

* `bytesOf_chunksWhere`, `find?_clearWhere`: the two halves of a drain;
  `bytesOf_chunksWhere_append` puts them together.
* `roundCount_eq`: what a round counts on its way is what it drains and leaves.
* `deliver_eq`, `deliverAll_eq`, `release_eq`: what becomes of chunks at a sink that is `Reliable`,
  all of whose calls succeed.
* `flushDue_eq`, `flushAll_eq`, `retain_eq`, `remove_eq_retain`: the operations that drain.
* `append_eq`: output that is to wait. -/

namespace PaneRelay

namespace Batcher

theorem isEmpty_iff {d : ByteArray} : d.isEmpty = true ↔ d = ByteArray.empty := by
  rw [← ByteArray.size_eq_zero_iff]; simp [ByteArray.isEmpty]

theorem Buffer.isIdle_iff {b : Buffer} : b.isIdle = true ↔ b.data = ByteArray.empty := isEmpty_iff

/-! ### The bytes of a pane -/

/-- **The bytes of a pane** in a list of chunks. -/
def bytesOf (p : PaneId) : List Chunk → ByteArray
  | [] => ByteArray.empty
  | c :: cs => if c.pane = p then c.data ++ bytesOf p cs else bytesOf p cs

@[simp] theorem bytesOf_nil (p : PaneId) : bytesOf p [] = ByteArray.empty := rfl

theorem bytesOf_cons (p : PaneId) (c : Chunk) (cs : List Chunk) :
    bytesOf p (c :: cs) = (if c.pane = p then c.data else ByteArray.empty) ++ bytesOf p cs := by
  rw [bytesOf]
  split
  · rfl
  · rw [ByteArray.empty_append]

@[simp] theorem bytesOf_append (p : PaneId) (cs ds : List Chunk) :
    bytesOf p (cs ++ ds) = bytesOf p cs ++ bytesOf p ds := by
  induction cs with
  | nil => simp
  | cons c cs ih => rw [List.cons_append, bytesOf_cons, bytesOf_cons, ih, ByteArray.append_assoc]

theorem bytesOf_singleton (p q : PaneId) (d : ByteArray) :
    bytesOf p [⟨q, d⟩] = if q = p then d else ByteArray.empty := by
  rw [bytesOf_cons, bytesOf_nil, ByteArray.append_empty]

theorem bytesOf_eq_empty {p : PaneId} {cs : List Chunk} (h : ∀ c ∈ cs, c.pane ≠ p) :
    bytesOf p cs = ByteArray.empty := by
  induction cs with
  | nil => rfl
  | cons c cs ih =>
    rw [bytesOf, if_neg (h c List.mem_cons_self)]
    exact ih fun d hd => h d (List.mem_cons_of_mem _ hd)

/-- What waits in an optional buffer. -/
def waitingIn : Option Buffer → ByteArray
  | none => ByteArray.empty
  | some b => b.data

/-- **What waits for a pane.** -/
def buffered (panes : PaneMap Buffer) (p : PaneId) : ByteArray := waitingIn (panes.find? p)

/-! ### Draining -/

theorem mem_chunksWhere {ready : Buffer → Bool} {panes : PaneMap Buffer} {c : Chunk} :
    c ∈ chunksWhere ready panes ↔
      ∃ b, (c.pane, b) ∈ panes.entries ∧ b.isIdle = false ∧ ready b = true ∧ b.data = c.data := by
  unfold chunksWhere
  simp only [List.mem_filterMap, Option.ite_none_right_eq_some, Bool.and_eq_true, Bool.not_eq_true']
  constructor
  · rintro ⟨⟨p, b⟩, hm, ⟨hi, hr⟩, hc⟩
    cases hc
    exact ⟨b, hm, hi, hr, rfl⟩
  · rintro ⟨b, hm, hi, hr, hd⟩
    exact ⟨_, hm, ⟨hi, hr⟩, by rw [hd]⟩

/-- The drained chunks hold the buffers that were ready. -/
theorem bytesOf_chunksWhere (ready : Buffer → Bool) (panes : PaneMap Buffer) (p : PaneId) :
    bytesOf p (chunksWhere ready panes) =
      waitingIn ((panes.find? p).filter fun b => !b.isIdle && ready b) := by
  obtain ⟨l, hl⟩ := panes
  induction l with
  | nil => rfl
  | cons e l ih =>
    obtain ⟨q, b⟩ := e
    have hq := (List.nodup_cons.mp hl).1
    specialize ih (List.nodup_cons.mp hl).2
    have hsplit : chunksWhere ready ⟨(q, b) :: l, hl⟩ =
        (if !b.isIdle && ready b then [⟨q, b.data⟩] else []) ++
          chunksWhere ready ⟨l, (List.nodup_cons.mp hl).2⟩ := by
      unfold chunksWhere
      rw [List.filterMap_cons]
      by_cases hb : (!b.isIdle && ready b) = true
      · simp only [hb, if_true]; rfl
      · simp only [hb, Bool.false_eq_true, if_false]; rfl
    rw [hsplit, bytesOf_append]
    by_cases h : p = q
    · -- no other entry has this key
      subst h
      have hrest : bytesOf p (chunksWhere ready ⟨l, (List.nodup_cons.mp hl).2⟩) =
          ByteArray.empty := by
        refine bytesOf_eq_empty fun c hc => ?_
        obtain ⟨d, hm, -⟩ := mem_chunksWhere.mp hc
        rintro rfl
        exact hq (List.mem_map.mpr ⟨_, hm, rfl⟩)
      rw [hrest, ByteArray.append_empty]
      unfold PaneMap.find?
      rw [List.lookup_cons_self, Option.filter_some]
      split <;> simp [bytesOf_singleton, waitingIn]
    · have hb : (p == q) = false := by simpa using h
      have hfind : PaneMap.find? ⟨(q, b) :: l, hl⟩ p =
          PaneMap.find? ⟨l, (List.nodup_cons.mp hl).2⟩ p := by
        unfold PaneMap.find?
        rw [List.lookup_cons, hb]
      rw [hfind, ih]
      split <;> simp [bytesOf_singleton, Ne.symm h]

theorem find?_clearWhere (ready : Buffer → Bool) (panes : PaneMap Buffer) (p : PaneId) :
    (clearWhere ready panes).find? p =
      (panes.find? p).map fun b => if !b.isIdle && ready b then b.cleared else b :=
  PaneMap.find?_mapVal panes _ p

/-- **A drain keeps the bytes of every pane**, those drained before those that stay. -/
theorem bytesOf_chunksWhere_append (ready : Buffer → Bool) (panes : PaneMap Buffer) (p : PaneId) :
    bytesOf p (chunksWhere ready panes) ++ buffered (clearWhere ready panes) p =
      buffered panes p := by
  rw [bytesOf_chunksWhere, buffered, buffered, find?_clearWhere]
  cases panes.find? p with
  | none => rfl
  | some b =>
    rw [Option.filter_some, Option.map_some]
    split
    · exact ByteArray.append_empty
    · exact ByteArray.empty_append

theorem buffered_clearAll (panes : PaneMap Buffer) (p : PaneId) :
    buffered (clearWhere (fun _ => true) panes) p = ByteArray.empty := by
  rw [buffered, find?_clearWhere]
  cases panes.find? p with
  | none => rfl
  | some b =>
    by_cases hb : b.isIdle = true
    · simp [hb, waitingIn, Buffer.isIdle_iff.mp hb]
    · simp [hb, waitingIn, Buffer.cleared]

theorem chunksWhere_ne_empty {ready : Buffer → Bool} {panes : PaneMap Buffer} {c : Chunk}
    (h : c ∈ chunksWhere ready panes) : c.data ≠ ByteArray.empty := by
  obtain ⟨b, -, hi, -, hd⟩ := mem_chunksWhere.mp h
  rw [← hd]
  intro he
  rw [Buffer.isIdle_iff.mpr he] at hi
  cases hi

theorem buffered_keep (panes : PaneMap Buffer) (live : PaneId → Bool) (p : PaneId) :
    buffered (panes.keep live) p = if live p then buffered panes p else ByteArray.empty := by
  rw [buffered, PaneMap.find?_keep]
  split <;> rfl

/-- Panes that are let go hand over what waited for them. -/
theorem bytesOf_keep (panes : PaneMap Buffer) (live : PaneId → Bool) (p : PaneId) :
    bytesOf p (chunksWhere (fun _ => true) (panes.keep fun q => !live q)) ++
      buffered (panes.keep live) p = buffered panes p := by
  have h := bytesOf_chunksWhere_append (fun _ => true) (panes.keep fun q => !live q) p
  rw [buffered_clearAll, ByteArray.append_empty] at h
  rw [h, buffered_keep, buffered_keep]
  cases live p <;> simp

/-! ### What a round counts -/

/-- Whether some buffer holds bytes. -/
def anyPending (panes : PaneMap Buffer) : Bool := panes.entries.any fun (_, b) => !b.isIdle

/-- **What is counted at some buffers**, whatever was counted before them. -/
theorem foldl_tallied (ready : Buffer → Bool) (l : List (PaneId × Buffer)) (found : Nat × Bool) :
    l.foldl (tallied ready) found =
      (found.1 + (l.filter fun e => !e.2.isIdle && ready e.2).length,
        found.2 || l.any fun e => !e.2.isIdle && !ready e.2) := by
  induction l generalizing found with
  | nil => simp
  | cons e l ih =>
    rw [List.foldl_cons, ih, tallied, List.filter_cons, List.any_cons]
    cases e.2.isIdle with
    | true => rfl
    | false =>
      cases ready e.2 with
      | true => simp [Nat.add_assoc, Nat.add_comm 1]
      | false => simp

theorem length_chunksWhere (ready : Buffer → Bool) (panes : PaneMap Buffer) :
    (chunksWhere ready panes).length =
      (panes.entries.filter fun e => !e.2.isIdle && ready e.2).length := by
  have hmap : chunksWhere ready panes =
      (panes.entries.filter fun e => !e.2.isIdle && ready e.2).map fun e => ⟨e.1, e.2.data⟩ := by
    unfold chunksWhere
    rw [← List.filterMap_eq_map, List.filterMap_filter]
    rfl
  rw [hmap, List.length_map]

theorem anyPending_clearWhere (ready : Buffer → Bool) (panes : PaneMap Buffer) :
    anyPending (clearWhere ready panes) =
      panes.entries.any fun e => !e.2.isIdle && !ready e.2 := by
  unfold anyPending clearWhere PaneMap.mapVal
  rw [List.any_map]
  congr 1
  funext e
  show (!(if !e.2.isIdle && ready e.2 then e.2.cleared else e.2).isIdle) = _
  cases hi : e.2.isIdle with
  | true => simp [hi]
  | false =>
    cases ready e.2 with
    | true => rfl
    | false => simp [hi]

/-- **What a round counts**: the buffers that it drains, and whether bytes are left when it has
drained them. -/
theorem roundCount_eq (b : Batcher) :
    b.roundCount = ((chunksWhere (Buffer.isDue b.policy b.now) b.panes).length,
      anyPending (clearWhere (Buffer.isDue b.policy b.now) b.panes)) := by
  rw [roundCount, foldl_tallied, length_chunksWhere, anyPending_clearWhere]
  simp

/-! ### A reliable sink -/

namespace Sink

/-- **A sink none of whose calls fails.** -/
def Reliable (s : Sink) : Prop := s.fate = fun _ => none

/-- The sink after calls that succeeded. -/
def took (s : Sink) (now : Nat) (cs : List Chunk) : Sink :=
  { s with calls := s.calls ++ cs.map fun c => ⟨now, c, false⟩ }

/-- **The chunks that arrived**, in order. -/
def chunks (s : Sink) : List Chunk := s.arrived.map Prod.snd

theorem Reliable.took {s : Sink} (h : s.Reliable) (now : Nat) (cs : List Chunk) :
    (s.took now cs).Reliable := h

@[simp] theorem took_nil (s : Sink) (now : Nat) : s.took now [] = s := by
  simp [Sink.took]

theorem took_took (s : Sink) (now : Nat) (cs ds : List Chunk) :
    (s.took now cs).took now ds = s.took now (cs ++ ds) := by
  simp [Sink.took, List.append_assoc]

@[simp] theorem chunks_took (s : Sink) (now : Nat) (cs : List Chunk) :
    (s.took now cs).chunks = s.chunks ++ cs := by
  have h : ((cs.map fun c => (⟨now, c, false⟩ : Call)).filterMap fun c =>
      if c.failed then none else some (c.time, c.chunk)).map Prod.snd = cs := by
    induction cs with
    | nil => rfl
    | cons c cs ih => exact congrArg (c :: ·) ih
  unfold chunks arrived Sink.took
  rw [List.filterMap_append, List.map_append, h]

theorem deliver_eq {s : Sink} (h : s.Reliable) (now : Nat) (c : Chunk) :
    s.deliver now c = (none, s.took now [c]) := by
  obtain ⟨calls, fate⟩ := s
  have hf : fate = fun _ => none := h
  subst hf
  rfl

theorem deliverAll_eq {s : Sink} (h : s.Reliable) (now : Nat) (cs : List Chunk) :
    s.deliverAll now cs = (none, s.took now cs) := by
  induction cs generalizing s with
  | nil => rw [took_nil]; rfl
  | cons c cs ih =>
    rw [deliverAll, deliver_eq h]
    simp only
    rw [ih (h.took now [c]), took_took]
    rfl

end Sink

/-! ### The operations that drain -/

theorem flushDue_eq {b : Batcher} (h : b.sink.Reliable) :
    b.flushDue = (none, { b with
      panes := clearWhere (Buffer.isDue b.policy b.now) b.panes
      sink := b.sink.took b.now (chunksWhere (Buffer.isDue b.policy b.now) b.panes) }) := by
  simp only [flushDue, hand, Sink.deliverAll_eq h]

theorem flushAll_eq {b : Batcher} (h : b.sink.Reliable) :
    b.flushAll = (none, { b with
      panes := clearWhere (fun _ => true) b.panes
      sink := b.sink.took b.now (chunksWhere (fun _ => true) b.panes) }) := by
  simp only [flushAll, hand, Sink.deliverAll_eq h]

/-- What is left in buffers that are let go. -/
def leftovers (l : List (PaneId × Buffer)) : List Chunk :=
  l.filterMap fun (p, b) => if b.isIdle then none else some ⟨p, b.data⟩

theorem leftovers_cons (p : PaneId) (b : Buffer) (l : List (PaneId × Buffer)) :
    leftovers ((p, b) :: l) = (if b.isIdle then [] else [⟨p, b.data⟩]) ++ leftovers l := by
  by_cases hi : b.isIdle = true <;> simp [leftovers, hi]

theorem leftovers_entries (panes : PaneMap Buffer) :
    leftovers panes.entries = chunksWhere (fun _ => true) panes := by
  unfold leftovers chunksWhere
  congr 1
  funext e
  cases h : e.2.isIdle <;> simp [h]

/-- The pool after buffers were let go. -/
def recycled (capacity : Nat) : List ByteArray → List (PaneId × Buffer) → List ByteArray
  | pool, [] => pool
  | pool, (_, b) :: rest =>
    recycled capacity
      (if b.isIdle then if pool.length < capacity then b.data :: pool else pool else pool) rest

theorem release_eq {b : Batcher} (h : b.sink.Reliable) (l : List (PaneId × Buffer)) :
    b.release l = (none, { b with
      pool := recycled b.policy.poolCapacity b.pool l
      sink := b.sink.took b.now (leftovers l) }) := by
  induction l generalizing b with
  | nil => simp [release, recycled, leftovers]
  | cons e l ih =>
    obtain ⟨p, buffer⟩ := e
    unfold release
    by_cases hi : buffer.isIdle = true
    · simp only [hi, if_true]
      rw [ih (by exact h), leftovers_cons, if_pos hi, List.nil_append]
      simp only [recycled, hi, if_true]
    · simp only [hi, Bool.false_eq_true, if_false, Sink.deliver_eq h]
      rw [ih (by exact h.took b.now _), leftovers_cons, if_neg hi, ← Sink.took_took]
      simp only [recycled, hi, Bool.false_eq_true, if_false]

theorem retain_eq {b : Batcher} (h : b.sink.Reliable) (live : PaneId → Bool) :
    b.retain live = (none, (b.panes.keep fun p => !live p).keys, { b with
      panes := b.panes.keep live
      pool := recycled b.policy.poolCapacity b.pool (b.panes.keep fun p => !live p).entries
      sink := b.sink.took b.now (chunksWhere (fun _ => true)
        (b.panes.keep fun p => !live p)) }) := by
  rw [← leftovers_entries]
  unfold retain
  have hr := release_eq (b := { b with panes := b.panes.keep live }) h
    (b.panes.keep fun p => !live p).entries
  simp only [PaneMap.keep] at hr ⊢
  rw [hr]
  rfl

/-- The pool only gets empty buffers. -/
theorem recycled_empty (capacity : Nat) (l : List (PaneId × Buffer)) {pool : List ByteArray}
    (hp : ∀ d ∈ pool, d = ByteArray.empty) :
    ∀ d ∈ recycled capacity pool l, d = ByteArray.empty := by
  induction l generalizing pool with
  | nil => exact hp
  | cons e l ih =>
    obtain ⟨p, buffer⟩ := e
    refine ih fun d hd => ?_
    split at hd
    · next hi =>
      split at hd
      · rcases List.mem_cons.mp hd with rfl | hd
        · exact Buffer.isIdle_iff.mp hi
        · exact hp d hd
      · exact hp d hd
    · exact hp d hd

/-- **Removing a pane is keeping all others.** -/
theorem remove_eq_retain (b : Batcher) (p : PaneId) :
    b.remove p = ((b.retain fun q => q != p).1, (b.retain fun q => q != p).2.2) := by
  have he := PaneMap.entries_keep_eq b.panes p
  unfold remove retain
  simp only [PaneMap.keep] at he
  simp only [he]
  cases hf : b.panes.find? p with
  | none =>
    have hk := PaneMap.erase_eq_self hf
    unfold PaneMap.erase at hk
    simp [release, hk]
  | some buffer => rfl

/-! ### Writing -/

/-- The buffer that output of a pane joins: its own, or a new one. -/
def bufferOf (b : Batcher) (p : PaneId) : Buffer :=
  (b.panes.find? p).getD ⟨ByteArray.empty, b.now, b.now⟩

theorem bufferOf_data (b : Batcher) (p : PaneId) : (b.bufferOf p).data = buffered b.panes p := by
  unfold bufferOf buffered
  cases b.panes.find? p <;> rfl

/-- A recycled buffer is as good as a new one. -/
theorem takeBuffer_eq {b : Batcher} (hp : ∀ d ∈ b.pool, d = ByteArray.empty) :
    ∃ pool, (∀ d ∈ pool, d = ByteArray.empty) ∧ b.takeBuffer = (ByteArray.empty, pool) := by
  unfold takeBuffer
  cases h : b.pool with
  | nil => exact ⟨[], by simp, rfl⟩
  | cons d pool =>
    rw [h] at hp
    exact ⟨pool, fun e he => hp e (List.mem_cons_of_mem _ he), by rw [hp d List.mem_cons_self]⟩

/-- **Output joins the end of its pane's buffer.** -/
theorem append_eq {b : Batcher} (hp : ∀ d ∈ b.pool, d = ByteArray.empty) (p : PaneId)
    (d : ByteArray) :
    ∃ pool crossed, (∀ e ∈ pool, e = ByteArray.empty) ∧ b.append p d =
      ({ b with panes := b.panes.insert p ((b.bufferOf p).add d b.now), pool },
        (b.bufferOf p).isIdle, crossed) := by
  unfold append bufferOf
  cases b.panes.find? p with
  | some old => exact ⟨_, _, hp, rfl⟩
  | none =>
    obtain ⟨pool, hpool, ht⟩ := takeBuffer_eq hp
    simp only [ht]
    exact ⟨pool, _, hpool, rfl⟩

end Batcher

end PaneRelay
