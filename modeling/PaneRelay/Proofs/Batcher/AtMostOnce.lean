import PaneRelay.Proofs.Batcher.Failing
import PaneRelay.Proofs.Batcher.Lossless

/-! # At most once, and in order, in front of a sink that fails

A buffer is taken whole, and the chunk that it becomes is handed over once or not at all. So the
calls that are made for a pane are some of the pieces that were taken from it, in their order,
whichever calls fail and however the loop is restarted.

* `Takes`: a change that takes buffers and writes nothing, such as a drain, a step of the loop and a
  stop.
* `Wrote`: what writes do.
* `spent`, `written`: the pieces that a move takes, and what it writes.
* `Tidy.move`, `Tidy.run`: the pieces account for the calls and for the bytes.
* `handed_sublist_spent`: what was handed over, and what works after a failure. -/

namespace PaneRelay.Batcher

/-! ### Pieces -/

/-- The data of a pane, one piece for each of its chunks. -/
def dataOf (p : PaneId) (cs : List Chunk) : List ByteArray :=
  (cs.filter fun c => c.pane = p).map Chunk.data

/-- Pieces put together. -/
def joined (ds : List ByteArray) : ByteArray := ds.foldr (· ++ ·) ByteArray.empty

/-- A piece, unless there is nothing in it. -/
def piece (d : ByteArray) : List ByteArray := if d.isEmpty then [] else [d]

/-- What was taken of bytes that waited: all of them, if none wait any more. -/
def emptied (before after : ByteArray) : List ByteArray :=
  if after.isEmpty then piece before else []

/-- **The data of the calls for a pane**, of those that failed too. -/
def handed (p : PaneId) (b : Batcher) : List ByteArray := dataOf p (b.sink.calls.map Call.chunk)

@[simp] theorem dataOf_append (p : PaneId) (cs ds : List Chunk) :
    dataOf p (cs ++ ds) = dataOf p cs ++ dataOf p ds := by
  simp [dataOf]

theorem joined_append (cs ds : List ByteArray) : joined (cs ++ ds) = joined cs ++ joined ds := by
  induction cs with
  | nil => exact ByteArray.empty_append.symm
  | cons c cs ih =>
    show c ++ joined (cs ++ ds) = c ++ joined cs ++ joined ds
    rw [ih, ByteArray.append_assoc]

theorem joined_dataOf (p : PaneId) (cs : List Chunk) : joined (dataOf p cs) = bytesOf p cs := by
  induction cs with
  | nil => rfl
  | cons c cs ih =>
    rw [bytesOf, ← ih]
    by_cases hc : c.pane = p
    · simp [dataOf, hc, joined]
    · simp [dataOf, hc]

theorem piece_empty : piece ByteArray.empty = [] := rfl

theorem piece_of_ne {d : ByteArray} (h : d ≠ ByteArray.empty) : piece d = [d] :=
  if_neg fun he => h (isEmpty_iff.mp he)

theorem joined_piece (d : ByteArray) : joined (piece d) = d := by
  by_cases h : d = ByteArray.empty
  · rw [h]
    rfl
  · rw [piece_of_ne h]
    exact ByteArray.append_empty

theorem joined_pieces (ds : List ByteArray) : joined (ds.flatMap piece) = joined ds := by
  induction ds with
  | nil => rfl
  | cons d ds ih =>
    rw [List.flatMap_cons, joined_append, joined_piece, ih]
    rfl

/-- Nothing was taken of bytes that still wait. -/
theorem emptied_append (d e : ByteArray) : emptied d (d ++ e) = [] := by
  unfold emptied
  split
  · next h =>
    rw [(ByteArray.append_eq_empty_iff.mp (isEmpty_iff.mp h)).1]
    rfl
  · rfl

theorem toList_joined (ds : List ByteArray) :
    (joined ds).data.toList = ds.flatMap fun d => d.data.toList := by
  induction ds with
  | nil => rfl
  | cons d ds ih =>
    show (d ++ joined ds).data.toList = _
    rw [ByteArray.data_append, Array.toList_append, ih, List.flatMap_cons]

/-- Fewer pieces, fewer bytes, in the same order. -/
theorem joined_sublist {cs ds : List ByteArray} (h : cs.Sublist ds) :
    (joined cs).data.toList.Sublist (joined ds).data.toList := by
  rw [toList_joined, toList_joined]
  induction h with
  | slnil => exact List.Sublist.refl _
  | cons d _ ih =>
    rw [List.flatMap_cons]
    exact ih.trans (List.sublist_append_right _ _)
  | cons_cons d _ ih =>
    rw [List.flatMap_cons, List.flatMap_cons]
    exact (List.Sublist.refl _).append ih

/-! ### A drain takes whole buffers -/

theorem chunksWhere_panes (ready : Buffer → Bool) (panes : PaneMap Buffer) :
    ((chunksWhere ready panes).map Chunk.pane).Sublist (panes.entries.map Prod.fst) := by
  unfold chunksWhere
  induction panes.entries with
  | nil => exact List.Sublist.refl _
  | cons e l ih =>
    obtain ⟨p, b⟩ := e
    rw [List.filterMap_cons]
    by_cases hr : (!b.isIdle && ready b) = true
    · simp only [hr, if_true, List.map_cons]
      exact ih.cons_cons p
    · simp only [hr, List.map_cons]
      exact ih.cons p

/-- No pane has two chunks in a drain. -/
theorem dataOf_chunksWhere (ready : Buffer → Bool) (panes : PaneMap Buffer) (p : PaneId) :
    dataOf p (chunksWhere ready panes) = piece (bytesOf p (chunksWhere ready panes)) := by
  -- by induction on the chunks, whose panes are all different
  have hnodup := (chunksWhere_panes ready panes).nodup panes.nodup
  have hsolid : ∀ c ∈ chunksWhere ready panes, c.data ≠ ByteArray.empty :=
    fun c hc => chunksWhere_ne_empty hc
  revert hnodup hsolid
  induction chunksWhere ready panes with
  | nil => intro _ _; rfl
  | cons c cs ih =>
    intro hnodup hsolid
    rw [List.map_cons, List.nodup_cons] at hnodup
    by_cases hc : c.pane = p
    · have hrest : ∀ d ∈ cs, d.pane ≠ p := by
        rintro d hd rfl
        exact hnodup.1 (List.mem_map.mpr ⟨d, hd, hc.symm⟩)
      have hnone : cs.filter (fun d => decide (d.pane = p)) = [] := by
        rw [List.filter_eq_nil_iff]
        intro d hd
        simpa using hrest d hd
      rw [bytesOf, if_pos hc, bytesOf_eq_empty hrest, ByteArray.append_empty,
        piece_of_ne (hsolid c List.mem_cons_self)]
      simp [dataOf, hc, hnone]
    · have hrest := ih hnodup.2 fun d hd => hsolid d (List.mem_cons_of_mem _ hd)
      rw [bytesOf, if_neg hc, ← hrest]
      simp [dataOf, hc]

/-- **A drain takes all that waits for a pane, or nothing.** -/
theorem dataOf_drained (b : Batcher) (d : Drain) (p : PaneId) :
    (dataOf p (b.drained d) = [] ∧ buffered (b.remaining d) p = buffered b.panes p) ∨
      (dataOf p (b.drained d) = [buffered b.panes p] ∧ buffered b.panes p ≠ ByteArray.empty ∧
        buffered (b.remaining d) p = ByteArray.empty) := by
  have hpiece : dataOf p (b.drained d) = piece (bytesOf p (b.drained d)) := by
    cases d with
    | round => exact dataOf_chunksWhere _ _ p
    | last => exact dataOf_chunksWhere (fun _ => true) _ p
    | retain live => exact dataOf_chunksWhere (fun _ => true) _ p
    | remove q => exact dataOf_chunksWhere (fun _ => true) _ p
  have hclear : ∀ ready, bytesOf p (chunksWhere ready b.panes) = ByteArray.empty ∨
      buffered (clearWhere ready b.panes) p = ByteArray.empty := by
    intro ready
    rw [bytesOf_chunksWhere, buffered, find?_clearWhere]
    cases b.panes.find? p with
    | none => exact .inl rfl
    | some buffer =>
      rw [Option.filter_some, Option.map_some]
      split
      · exact .inr rfl
      · exact .inl rfl
  have hkeep : ∀ live : PaneId → Bool,
      bytesOf p (chunksWhere (fun _ => true) (b.panes.keep fun q => !live q)) = ByteArray.empty ∨
        buffered (b.panes.keep live) p = ByteArray.empty := by
    intro live
    rw [bytesOf_chunksWhere, PaneMap.find?_keep, buffered_keep]
    cases live p
    · exact .inr rfl
    · exact .inl rfl
  have hone : bytesOf p (b.drained d) = ByteArray.empty ∨
      buffered (b.remaining d) p = ByteArray.empty := by
    cases d with
    | round => exact hclear _
    | last => exact hclear fun _ => true
    | retain live => exact hkeep live
    | remove q => exact hkeep fun r => r != q
  have hsum := bytesOf_drained b d p
  rw [hpiece]
  by_cases he : bytesOf p (b.drained d) = ByteArray.empty
  · left
    rw [he, ByteArray.empty_append] at hsum
    exact ⟨by rw [he]; rfl, hsum⟩
  · right
    have hrest := hone.resolve_left he
    rw [hrest, ByteArray.append_empty] at hsum
    rw [← hsum]
    exact ⟨piece_of_ne he, he, hrest⟩

theorem handed_drain (b : Batcher) (d : Drain) (p : PaneId) :
    handed p (b.drain d).2 =
      handed p b ++ dataOf p ((b.sink.attempts b.now (b.drained d)).map Call.chunk) := by
  unfold handed
  rw [drain_calls, List.map_append, dataOf_append]

/-! ### Changes that write nothing -/

/-- **What becomes of a pane's buffer** when nothing is written: it stays, or it is taken whole and
handed over once or not at all. -/
inductive Eased (p : PaneId) (b b' : Batcher) : Prop where
  | kept (calls : handed p b' = handed p b) (rest : buffered b'.panes p = buffered b.panes p)
  | taken (calls : handed p b' = handed p b ∨ handed p b' = handed p b ++ [buffered b.panes p])
      (waits : buffered b.panes p ≠ ByteArray.empty) (rest : buffered b'.panes p = ByteArray.empty)

theorem Eased.trans {p : PaneId} {a b c : Batcher} (h : Eased p a b) (h' : Eased p b c) :
    Eased p a c := by
  -- a buffer that was taken is empty, so it is not taken again
  cases h with
  | kept calls rest =>
    cases h' with
    | kept calls' rest' => exact .kept (calls'.trans calls) (rest'.trans rest)
    | taken calls' waits rest' =>
      rw [rest] at calls' waits
      rw [calls] at calls'
      exact .taken calls' waits rest'
  | taken calls waits rest =>
    cases h' with
    | kept calls' rest' => exact .taken (by rwa [calls']) waits (rest'.trans rest)
    | taken _ waits' _ => exact absurd rest waits'

/-- **Buffers and calls in order:** empty buffers in the pool, no empty call, and nothing that waits
once output passes through. -/
structure Tidy (b : Batcher) : Prop where
  pool : ∀ d ∈ b.pool, d = ByteArray.empty
  solid : ∀ c ∈ b.sink.calls, c.chunk.data ≠ ByteArray.empty
  passing : b.stopped = true → ∀ p, buffered b.panes p = ByteArray.empty

/-- **A change that writes nothing**, and takes what it takes whole. -/
structure Takes (b b' : Batcher) : Prop where
  eased : ∀ p, Eased p b b'
  tidy : Tidy b → Tidy b'

namespace Takes

theorem trans {a b c : Batcher} (h : Takes a b) (h' : Takes b c) : Takes a c :=
  ⟨fun p => (h.eased p).trans (h'.eased p), fun ha => h'.tidy (h.tidy ha)⟩

/-- The clock, the loop and the flags of the batcher do not count. -/
theorem of_eq {b b' : Batcher} (hsink : b'.sink = b.sink) (hpanes : b'.panes = b.panes)
    (hpool : b'.pool = b.pool) (hstopped : b'.stopped = b.stopped) : Takes b b' := by
  refine ⟨fun p => .kept ?_ ?_, fun h => ⟨?_, ?_, ?_⟩⟩
  · rw [handed, handed, hsink]
  · rw [hpanes]
  · rw [hpool]; exact h.pool
  · rw [hsink]; exact h.solid
  · rw [hstopped, hpanes]; exact h.passing

theorem refl (b : Batcher) : Takes b b := of_eq rfl rfl rfl rfl

theorem drain (b : Batcher) (d : Drain) : Takes b (b.drain d).2 := by
  have heased : ∀ p, Eased p b (b.drain d).2 := by
    intro p
    -- the calls are made for a first part of the chunks
    have hparts := congrArg (dataOf p) (b.sink.attempts_append_abandoned b.now (b.drained d))
    rw [dataOf_append] at hparts
    have hcalls := handed_drain b d p
    rcases dataOf_drained b d p with ⟨hnone, hrest⟩ | ⟨hone, hwaits, hrest⟩
    · rw [hnone, List.append_eq_nil_iff] at hparts
      rw [hparts.1, List.append_nil] at hcalls
      exact .kept hcalls (by rwa [drain_panes])
    · rw [hone, List.append_eq_singleton_iff] at hparts
      refine .taken ?_ hwaits (by rwa [drain_panes])
      rcases hparts with ⟨h, -⟩ | ⟨h, -⟩
      · left
        rw [hcalls, h, List.append_nil]
      · right
        rw [hcalls, h]
  refine ⟨heased, fun h => ?_⟩
  obtain ⟨pool, hpool, hd⟩ := drain_eq b d
  refine ⟨?_, ?_, ?_⟩
  · rw [hd]
    intro e he
    rcases hpool e he with he | he
    · exact h.pool e he
    · exact he
  · rw [drain_calls]
    intro c hc
    rcases List.mem_append.mp hc with hc | hc
    · exact h.solid c hc
    · refine drained_solid (b := b) (d := d) ?_
      rw [← b.sink.attempts_append_abandoned b.now (b.drained d)]
      exact List.mem_append_left _ (List.mem_map.mpr ⟨c, hc, rfl⟩)
  · intro hs p
    have hs' : b.stopped = true := by rwa [hd] at hs
    cases heased p with
    | kept _ rest => exact rest.trans (h.passing hs' p)
    | taken _ _ rest => exact rest

theorem look (b : Batcher) (loop : Supervisor.State) (period : Nat) :
    Takes b (b.look loop period) := by
  have h : Takes b b.flushDue.2 := drain b .round
  unfold Batcher.look
  generalize b.flushDue = r at h
  obtain ⟨e, b'⟩ := r
  cases e with
  | none => exact h.trans (of_eq rfl rfl rfl rfl)
  | some e => exact h.trans (of_eq rfl rfl rfl rfl)

theorem turned {b b' : Batcher} (ht : Turned b b') : Takes b b' := by
  cases ht with
  | ended =>
    have h : Takes b b.flushAll.2 := drain b .last
    exact h.trans (of_eq rfl rfl rfl rfl)
  | linked => exact of_eq rfl rfl rfl rfl
  | dropped => exact of_eq rfl rfl rfl rfl
  | began => exact of_eq rfl rfl rfl rfl
  | woken =>
    have h : Takes b { b with wake := false } := of_eq rfl rfl rfl rfl
    exact h.trans (look _ _ _)
  | ticked => exact look _ _ _
  | resumed => exact of_eq rfl rfl rfl rfl

theorem turns (n : Nat) (b : Batcher) : Takes b (Batcher.turns n b) := by
  induction n generalizing b with
  | zero => exact refl b
  | succ n ih =>
    unfold Batcher.turns
    split
    · next b' h => exact (turned (turned_of_turn h)).trans (ih b')
    · exact refl b

theorem advanceTo (fuel till : Nat) (b : Batcher) : Takes b (Batcher.advanceTo fuel till b) := by
  induction fuel generalizing b with
  | zero => exact of_eq rfl rfl rfl rfl
  | succ fuel ih =>
    unfold Batcher.advanceTo
    split
    · next t _ =>
      split
      · have h : Takes b { b with now := max b.now t } := of_eq rfl rfl rfl rfl
        exact (h.trans (turns 16 _)).trans (ih _)
      · exact of_eq rfl rfl rfl rfl
    · exact of_eq rfl rfl rfl rfl

theorem stop (b : Batcher) : Takes b b.stop.2 := by
  -- the loop ends, and what is left is drained before output may pass through
  have hcancel : Takes b { b with cancelled := true } := of_eq rfl rfl rfl rfl
  have hsettled := hcancel.trans (turns 16 _)
  have hlast := hsettled.trans (drain (Batcher.settle { b with cancelled := true }) .last)
  refine ⟨fun p => ?_, fun h => ?_⟩
  · cases hlast.eased p with
    | kept calls rest => exact .kept calls rest
    | taken calls waits rest => exact .taken calls waits rest
  · obtain ⟨hpool, hsolid, -⟩ := hlast.tidy h
    exact ⟨hpool, hsolid, fun _ => buffered_clearAll _⟩

end Takes

/-! ### Writes -/

/-- The writes that are made out of several: none after one at which the sink fails. -/
def made (b : Batcher) : List (PaneId × ByteArray) → List Chunk
  | [] => []
  | (p, data) :: items =>
    ⟨p, data⟩ :: if (b.write p data).1.isSome then [] else (b.write p data).2.made items

/-- **What writes do:** they add to what waits, or pass straight through. -/
structure Wrote (b b' : Batcher) (cs : List Chunk) : Prop where
  stopped : b'.stopped = b.stopped
  tidy : Tidy b'
  calls : ∀ p, handed p b' = handed p b ++
    if b.stopped then (dataOf p cs).flatMap piece else []
  waits : ∀ p, buffered b'.panes p = buffered b.panes p ++
    if b.stopped then ByteArray.empty else bytesOf p cs

namespace Wrote

theorem trans {a b c : Batcher} {cs ds : List Chunk} (h : Wrote a b cs) (h' : Wrote b c ds) :
    Wrote a c (cs ++ ds) := by
  refine ⟨h'.stopped.trans h.stopped, h'.tidy, fun p => ?_, fun p => ?_⟩
  · rw [h'.calls, h.calls, h.stopped, dataOf_append, List.flatMap_append, List.append_assoc]
    split
    · rfl
    · rw [List.append_nil]
  · rw [h'.waits, h.waits, h.stopped, bytesOf_append, ByteArray.append_assoc]
    split
    · rw [ByteArray.append_empty]
    · rfl

theorem write {b : Batcher} (h : Tidy b) (p : PaneId) (d : ByteArray) :
    Wrote b (b.write p d).2 [⟨p, d⟩] := by
  have hdata : ∀ q, dataOf q [⟨p, d⟩] = if p = q then [d] else [] := by
    intro q
    by_cases hq : p = q <;> simp [dataOf, hq]
  unfold Batcher.write
  by_cases hd : d.isEmpty = true
  · rw [if_pos hd]
    have he := isEmpty_iff.mp hd
    refine ⟨rfl, h, fun q => ?_, fun q => ?_⟩
    · rw [hdata, he]
      split
      · split <;> simp [piece_empty]
      · rw [List.append_nil]
    · rw [bytesOf_singleton, he, ite_self, ite_self, ByteArray.append_empty]
  have hne : d ≠ ByteArray.empty := fun he => hd (isEmpty_iff.mpr he)
  by_cases hs : b.stopped = true
  · rw [if_neg hd, if_pos hs]
    refine ⟨rfl, ⟨h.pool, fun c hc => ?_, h.passing⟩, fun q => ?_, fun q => ?_⟩
    · rcases List.mem_append.mp hc with hc | hc
      · exact h.solid c hc
      · rw [List.mem_singleton] at hc
        rw [hc]
        exact hne
    · have hcalls : handed q { b with sink := (b.sink.deliver b.now ⟨p, d⟩).2 } =
          handed q b ++ dataOf q [⟨p, d⟩] := by
        unfold handed
        rw [← dataOf_append]
        simp [Sink.deliver]
      have hpieces : (dataOf q [⟨p, d⟩]).flatMap piece = dataOf q [⟨p, d⟩] := by
        rw [hdata]
        split <;> simp [piece_of_ne hne]
      rw [if_pos hs, hpieces]
      exact hcalls
    · rw [if_pos hs, ByteArray.append_empty]
  · rw [if_neg hd, if_neg hs]
    obtain ⟨pool, crossed, hpool, ha⟩ := append_eq h.pool p d
    rw [ha]
    have hsig : ∀ c : Batcher, ∀ first crossed, Wrote b c [⟨p, d⟩] →
        Wrote b (c.signal first crossed) [⟨p, d⟩] := by
      intro c first crossed hc
      unfold signal
      split
      · exact ⟨hc.stopped, ⟨hc.tidy.pool, hc.tidy.solid, hc.tidy.passing⟩, hc.calls, hc.waits⟩
      · exact hc
    refine hsig _ _ _ ⟨rfl, ⟨hpool, h.solid, fun hs' => absurd hs' hs⟩, fun q => ?_, fun q => ?_⟩
    · rw [if_neg hs, List.append_nil]
      rfl
    · rw [if_neg hs, bytesOf_singleton, buffered, PaneMap.find?_insert]
      by_cases hq : q = p
      · subst hq
        rw [if_pos rfl, if_pos rfl, ← bufferOf_data]
        rfl
      · rw [if_neg hq, if_neg (Ne.symm hq), ByteArray.append_empty]
        rfl

theorem writeAll {b : Batcher} (h : Tidy b) (items : List (PaneId × ByteArray)) :
    Wrote b (b.writeAll items).2 (b.made items) := by
  induction items generalizing b with
  | nil =>
    refine ⟨rfl, h, fun p => ?_, fun p => ?_⟩
    · simp [made, dataOf, Batcher.writeAll]
    · simp [made, Batcher.writeAll]
  | cons e items ih =>
    obtain ⟨p, d⟩ := e
    have hw := write h p d
    unfold Batcher.writeAll made
    generalize b.write p d = r at hw
    obtain ⟨e, b'⟩ := r
    cases e with
    | none => exact hw.trans (ih hw.tidy)
    | some e => exact hw

end Wrote

/-! ### Runs -/

/-- **What a move writes.** -/
def written (b : Batcher) : Move → List Chunk
  | .op (.write p data) => [⟨p, data⟩]
  | .op (.writes items) => b.made items
  | _ => []

/-- **The pieces that a move takes for a pane:** the whole of its buffer, if the move empties it,
and each write, once output passes through. -/
def spent (p : PaneId) (b : Batcher) (m : Move) : List ByteArray :=
  if b.stopped then (dataOf p (b.written m)).flatMap piece
  else emptied (buffered b.panes p) (buffered (b.move m).panes p)

def writtenIn (b : Batcher) : List Move → List Chunk
  | [] => []
  | m :: ms => b.written m ++ (b.move m).writtenIn ms

/-- The pieces that a run takes for a pane. -/
def spentIn (p : PaneId) (b : Batcher) : List Move → List ByteArray
  | [] => []
  | m :: ms => spent p b m ++ spentIn p (b.move m) ms

/-- **The pieces account for the calls of a pane and for its bytes:** the calls were made for some
of the pieces, and the pieces followed by what waits are what waited and what was written. -/
structure Accounts (p : PaneId) (b b' : Batcher) (pieces : List ByteArray) (w : List Chunk) :
    Prop where
  calls : ∃ xs, handed p b' = handed p b ++ xs ∧ xs.Sublist pieces
  bytes : joined pieces ++ buffered b'.panes p = buffered b.panes p ++ bytesOf p w

theorem Accounts.trans {p : PaneId} {a b c : Batcher} {xs ys : List ByteArray} {v w : List Chunk}
    (h : Accounts p a b xs v) (h' : Accounts p b c ys w) : Accounts p a c (xs ++ ys) (v ++ w) := by
  obtain ⟨⟨us, hus, hsub⟩, hbytes⟩ := h
  obtain ⟨⟨vs, hvs, hsub'⟩, hbytes'⟩ := h'
  refine ⟨⟨us ++ vs, ?_, hsub.append hsub'⟩, ?_⟩
  · rw [hvs, hus, List.append_assoc]
  · rw [joined_append, ByteArray.append_assoc, hbytes', ← ByteArray.append_assoc, hbytes,
      bytesOf_append, ByteArray.append_assoc]

theorem Takes.accounts {b : Batcher} {m : Move} (ht : Takes b (b.move m)) (h : Tidy b)
    (hw : b.written m = []) (p : PaneId) :
    Accounts p b (b.move m) (spent p b m) (b.written m) := by
  unfold spent
  rw [hw]
  cases ht.eased p with
  | kept calls rest =>
    have hnone : (if b.stopped = true then (dataOf p []).flatMap piece
        else emptied (buffered b.panes p) (buffered (b.move m).panes p)) = [] := by
      rw [rest]
      split
      · rfl
      · have hsame := emptied_append (buffered b.panes p) ByteArray.empty
        rwa [ByteArray.append_empty] at hsame
    rw [hnone]
    refine ⟨⟨[], by rw [calls, List.append_nil], List.Sublist.refl _⟩, ?_⟩
    rw [rest, bytesOf_nil, ByteArray.append_empty]
    exact ByteArray.empty_append
  | taken calls waits rest =>
    have hs : b.stopped ≠ true := fun hs => waits (h.passing hs p)
    have hone : emptied (buffered b.panes p) (buffered (b.move m).panes p) =
        [buffered b.panes p] := by
      rw [rest]
      exact piece_of_ne waits
    have hjoined : joined [buffered b.panes p] = buffered b.panes p := ByteArray.append_empty
    rw [if_neg hs, hone]
    refine ⟨?_, by rw [rest, bytesOf_nil, hjoined]⟩
    rcases calls with calls | calls
    · exact ⟨[], by rw [calls, List.append_nil], List.nil_sublist _⟩
    · exact ⟨[buffered b.panes p], calls, List.Sublist.refl _⟩

theorem Wrote.accounts {b : Batcher} {m : Move} (hw : Wrote b (b.move m) (b.written m))
    (h : Tidy b) (p : PaneId) : Accounts p b (b.move m) (spent p b m) (b.written m) := by
  have hcalls := hw.calls p
  have hwaits := hw.waits p
  unfold spent
  by_cases hs : b.stopped = true
  · rw [if_pos hs] at hcalls hwaits ⊢
    refine ⟨⟨_, hcalls, List.Sublist.refl _⟩, ?_⟩
    rw [hwaits, h.passing hs p, joined_pieces, joined_dataOf, ByteArray.empty_append,
      ByteArray.append_empty, ByteArray.empty_append]
  · rw [if_neg hs] at hcalls hwaits ⊢
    have hnone : emptied (buffered b.panes p) (buffered (b.move m).panes p) = [] := by
      rw [hwaits]
      exact emptied_append _ _
    rw [hnone]
    exact ⟨⟨[], hcalls, List.Sublist.refl _⟩, by rw [hwaits]; exact ByteArray.empty_append⟩

theorem Tidy.move {b : Batcher} (h : Tidy b) (m : Move) :
    Tidy (b.move m) ∧ ∀ p, Accounts p b (b.move m) (spent p b m) (b.written m) := by
  have htakes : Takes b (b.move m) → b.written m = [] →
      Tidy (b.move m) ∧ ∀ p, Accounts p b (b.move m) (spent p b m) (b.written m) :=
    fun ht hw => ⟨ht.tidy h, ht.accounts h hw⟩
  have hwrote : Wrote b (b.move m) (b.written m) →
      Tidy (b.move m) ∧ ∀ p, Accounts p b (b.move m) (spent p b m) (b.written m) :=
    fun hw => ⟨hw.tidy, hw.accounts h⟩
  cases m with
  | turn =>
    refine htakes ?_ rfl
    show Takes b (b.turn.getD b)
    cases ht : b.turn with
    | none => exact .refl b
    | some b' => exact .turned (turned_of_turn ht)
  | tick ms => exact htakes (.of_eq rfl rfl rfl rfl) rfl
  | halt => exact htakes (.of_eq rfl rfl rfl rfl) rfl
  | op o =>
    cases o with
    | write p d => exact hwrote (.write h p d)
    | writes items => exact hwrote (.writeAll h items)
    | start =>
      refine htakes ?_ rfl
      show Takes b b.start
      unfold start
      split
      · split
        · exact .refl b
        · exact .of_eq rfl rfl rfl rfl
      · exact .refl b
    | sleep ms => exact htakes (.advanceTo _ _ _) rfl
    | remove p => exact htakes (.drain b (.remove p)) rfl
    | retain live => exact htakes (.drain b (.retain fun p => live.contains p)) rfl
    | cancel => exact htakes (.of_eq rfl rfl rfl rfl) rfl
    | stop => exact htakes (.stop b) rfl

theorem Tidy.run {b : Batcher} (h : Tidy b) (ms : List Move) :
    Tidy (b.run ms) ∧ ∀ p, Accounts p b (b.run ms) (spentIn p b ms) (b.writtenIn ms) := by
  induction ms generalizing b with
  | nil =>
    refine ⟨h, fun p => ⟨⟨[], by simp, List.Sublist.refl _⟩, ?_⟩⟩
    rw [run_nil, writtenIn, bytesOf_nil, ByteArray.append_empty]
    exact ByteArray.empty_append
  | cons m ms ih =>
    obtain ⟨htidy, hmove⟩ := h.move m
    obtain ⟨hend, hrun⟩ := ih htidy
    exact ⟨hend, fun p => (hmove p).trans (hrun p)⟩

theorem tidy_fresh (policy : BatchPolicy) (restart : RestartPolicy) (fate : Nat → Option String) :
    Tidy (fresh policy restart fate) where
  pool d hd := by cases hd
  solid c hc := by cases hc
  passing h := by cases h

/-! ### After a failure -/

/-- A batcher none of whose further calls of the sink will fail. -/
def mended (b : Batcher) : Batcher := { b with sink := { b.sink with fate := fun _ => none } }

/-- **A batcher is as good as new** once its sink is: its books balance with what arrived and what
waits. -/
theorem Tidy.balanced {b : Batcher} (h : Tidy b) :
    Balanced b.mended (b.sink.chunks ++ chunksWhere (fun _ => true) b.panes) where
  reliable := rfl
  bytes p := by
    have hall := bytesOf_chunksWhere_append (fun _ => true) b.panes p
    rw [buffered_clearAll, ByteArray.append_empty] at hall
    rw [bytesOf_append, hall]
    rfl
  solid c hc := by
    have hc' : c ∈ arrivals b.sink.calls := by
      rw [← Sink.chunks_eq]
      exact hc
    unfold arrivals at hc'
    rw [List.mem_filterMap] at hc'
    obtain ⟨call, hcall, hsome⟩ := hc'
    split at hsome
    · cases hsome
    · cases hsome
      exact h.solid call hcall
  pool := h.pool
  passing := h.passing

theorem Balanced.writeAll_fst {b : Batcher} {w : List Chunk} (h : Balanced b w)
    (items : List (PaneId × ByteArray)) : (b.writeAll items).1 = none := by
  induction items generalizing b w with
  | nil => rfl
  | cons e items ih =>
    obtain ⟨p, d⟩ := e
    obtain ⟨hnone, hb⟩ := h.write p d
    unfold Batcher.writeAll
    generalize b.write p d = r at hnone hb
    obtain ⟨e, b'⟩ := r
    cases hnone
    exact ih hb

theorem Balanced.stop_fst {b : Batcher} {w : List Chunk} (h : Balanced b w) :
    b.stop.1 = none := by
  have h' : Balanced { b with cancelled := true } w := h.of_eq rfl rfl rfl rfl
  unfold Batcher.stop settle
  rw [flushAll_eq (by exact (h'.turns 16).reliable)]

/-- No operation fails in front of a sink that does not. -/
theorem Balanced.apply_ne_panicked {b : Batcher} {w : List Chunk} (h : Balanced b w) (o : Op)
    (text : String) : (b.apply o).1 ≠ .panicked text := by
  have hreply : ∀ (e : Option String) (r : Reply), e = none → r ≠ .panicked text →
      replyOr e r ≠ .panicked text := by
    rintro e r rfl hr
    exact hr
  have hretain : ∀ live, (b.retain live).1 = none := by
    intro live
    rw [retain_eq h.reliable]
  cases o with
  | start => exact nofun
  | write p d => exact hreply _ .done (h.write p d).1 nofun
  | writes items => exact hreply _ .done (h.writeAll_fst items) nofun
  | sleep ms => exact nofun
  | remove p =>
    refine hreply (b.remove p).1 .done ?_ nofun
    rw [remove_eq_retain]
    exact hretain _
  | retain live => exact hreply _ (.removed _) (hretain _) nofun
  | cancel => exact nofun
  | stop => exact hreply _ .done h.stop_fst nofun

/-- **At most once, and in order.** Whichever calls of the sink fail, whatever the restart policy,
and however operations and steps of the loop follow each other: the calls for a pane are made for
some of the pieces that were taken from it, each at most once and in their order, and all pieces
followed by what waits are what was written to it. So no byte is handed over twice, in another
place, or that was not written. And whenever the sink stops to fail, no operation fails any more and
nothing that is safe at that moment or written after it is lost. -/
theorem handed_sublist_spent (policy : BatchPolicy) (restart : RestartPolicy)
    (fate : Nat → Option String) (ms : List Move) :
    let start := fresh policy restart fate
    let b := start.run ms
    (∀ p, (handed p b).Sublist (spentIn p start ms) ∧
      joined (spentIn p start ms) ++ buffered b.panes p = bytesOf p (start.writtenIn ms) ∧
      (joined (handed p b) ++ buffered b.panes p).data.toList.Sublist
        (bytesOf p (start.writtenIn ms)).data.toList) ∧
    ∀ more, (∀ o text, ((b.mended.run more).apply o).1 ≠ .panicked text) ∧
      ∀ p, (b.mended.run more).safe p = b.safe p ++ bytesOf p (more.flatMap Move.output) := by
  intro start b
  obtain ⟨htidy, hacc⟩ := (tidy_fresh policy restart fate).run ms
  refine ⟨fun p => ?_, fun more => ?_⟩
  · obtain ⟨⟨xs, hxs, hsub⟩, hbytes⟩ := hacc p
    have hhanded : handed p b = xs := hxs
    have hsum : joined (spentIn p start ms) ++ buffered b.panes p =
        bytesOf p (start.writtenIn ms) := by
      rw [hbytes]
      exact ByteArray.empty_append
    refine ⟨hhanded ▸ hsub, hsum, ?_⟩
    rw [← hsum, hhanded, ByteArray.data_append, ByteArray.data_append, Array.toList_append,
      Array.toList_append]
    exact (joined_sublist hsub).append (List.Sublist.refl _)
  · have hbal := htidy.balanced
    refine ⟨(hbal.run more).apply_ne_panicked, fun p => ?_⟩
    have hbefore := hbal.bytes p
    have hafter := (hbal.run more).bytes p
    rw [bytesOf_append, ← hbefore] at hafter
    exact hafter

end PaneRelay.Batcher
