import PaneRelay.Proofs.Batcher.Work

/-! # How far chunks lie apart

A round takes a buffer that is not full only if its pane has been quiet for the interval, or its
first byte has waited for the greatest age. Both times begin after the pane's last call: whatever
makes a call takes the whole buffer, so the bytes that wait now were all written later. So no
wake-up, however many there are, brings a pane's chunks closer together than that.

* `Dated`, `run_dated`: calls lie before the bytes that wait for their panes.
* `Due`: why a round takes a buffer.
* `Sparing`: what a round takes and leaves, and what it says about it.
* `round_sparing`: every round of every run is of this kind. -/

namespace PaneRelay.Batcher

/-! ### Calls and the bytes that wait -/

/-- **Times in order:** no call lies ahead, and the bytes that wait for a pane were written after
the pane's calls. -/
structure Dated (b : Batcher) : Prop where
  /-- No call lies ahead. -/
  past : ∀ call ∈ b.sink.calls, call.time ≤ b.now
  /-- The last write comes after the first, and does not lie ahead either. -/
  wrote : ∀ {p buffer}, b.Waits p buffer →
    buffer.pendingSince ≤ buffer.lastWrite ∧ buffer.lastWrite ≤ b.now
  /-- The first byte that waits came after the calls. -/
  began : ∀ {p buffer}, b.Waits p buffer → ∀ call ∈ b.sink.calls, call.chunk.pane = p →
    call.time ≤ buffer.pendingSince

theorem dated_fresh (policy : BatchPolicy) (restart : RestartPolicy)
    (fate : Nat → Option String) : Dated (fresh policy restart fate) :=
  ⟨nofun, fun hw => absurd hw.1 nofun, fun hw => absurd hw.1 nofun⟩

/-- Calls are made at the present moment, for chunks that were drained. -/
theorem Sink.mem_attempts {s : Sink} {now : Nat} {cs : List Chunk} {call : Call}
    (h : call ∈ s.attempts now cs) : call.time = now ∧ call.chunk ∈ cs := by
  induction cs generalizing s with
  | nil => cases h
  | cons c cs ih =>
    unfold Sink.attempts at h
    rcases List.mem_cons.mp h with rfl | h
    · exact ⟨rfl, List.mem_cons_self⟩
    · split at h
      · cases h
      · obtain ⟨htime, hchunk⟩ := ih h
        exact ⟨htime, List.mem_cons_of_mem _ hchunk⟩

/-- **What a drain leaves waiting** waited before, and nothing of its pane was drained. -/
theorem waits_drain {b : Batcher} {d : Drain} {p : PaneId} {buffer : Buffer}
    (h : (b.drain d).2.Waits p buffer) :
    b.Waits p buffer ∧ ∀ c ∈ b.drained d, c.pane ≠ p := by
  have hrest : ({ b with panes := b.remaining d } : Batcher).Waits p buffer := by
    unfold Waits at h ⊢
    rwa [drain_panes] at h
  constructor
  · cases d with
    | round => exact (waits_clearWhere hrest).1
    | last => exact (waits_clearWhere hrest).1
    | retain live => exact waits_keep hrest
    | remove q => exact waits_keep hrest
  · rcases dataOf_drained b d p with ⟨hnone, -⟩ | ⟨-, -, hempty⟩
    · rintro c hc rfl
      have hdata : c.data ∈ dataOf c.pane (b.drained d) :=
        List.mem_map.mpr ⟨c, List.mem_filter.mpr ⟨hc, by simp⟩, rfl⟩
      rw [hnone] at hdata
      cases hdata
    · exact absurd hempty (holds_iff_waits.mpr ⟨buffer, hrest⟩)

theorem Dated.drain {b : Batcher} (h : Dated b) (d : Drain) : Dated (b.drain d).2 := by
  have hcall : ∀ {call}, call ∈ (b.drain d).2.sink.calls →
      call ∈ b.sink.calls ∨ call.time = b.now ∧ call.chunk ∈ b.drained d := by
    intro call hc
    rw [drain_calls] at hc
    exact (List.mem_append.mp hc).imp id Sink.mem_attempts
  refine ⟨fun call hc => ?_, fun hw => ?_, fun hw call hc hp => ?_⟩
  · rw [drain_now]
    rcases hcall hc with hc | ⟨htime, -⟩
    · exact h.past call hc
    · exact Nat.le_of_eq htime
  · rw [drain_now]
    exact h.wrote (waits_drain hw).1
  · obtain ⟨hbefore, hother⟩ := waits_drain hw
    rcases hcall hc with hc | ⟨-, hchunk⟩
    · exact h.began hbefore call hc hp
    · exact absurd hp (hother _ hchunk)

theorem Work.dated {b b' : Batcher} (h : Work b b') (hb : Dated b) : Dated b' := by
  cases h with
  | aside later =>
    refine ⟨fun call hc => Nat.le_trans (hb.past call hc) later, fun hw => ?_, hb.began⟩
    obtain ⟨h1, h2⟩ := hb.wrote hw
    exact ⟨h1, Nat.le_trans h2 later⟩
  | drain d => exact hb.drain d
  | heed => exact ⟨(hb.drain .round).past, (hb.drain .round).wrote, (hb.drain .round).began⟩
  | shut => exact ⟨(hb.drain .last).past, (hb.drain .last).wrote, (hb.drain .last).began⟩

theorem Dated.write {b : Batcher} (h : Dated b) (ht : Tidy b) (p : PaneId) (d : ByteArray) :
    Dated (b.write p d).2 := by
  have hw := written_of_write ht.pool p d
  generalize b.write p d = r at hw
  cases hw with
  | nothing => exact h
  | passed solid stopped =>
    -- nothing waits that the call could come too late for
    have hnone : ∀ {sink q buffer}, ¬ Waits { b with sink } q buffer := fun {_ q _} hq =>
      absurd (ht.passing stopped q) (holds_iff_waits.mpr ⟨_, hq⟩)
    refine ⟨fun call hc => ?_, fun hq => absurd hq hnone, fun hq => absurd hq hnone⟩
    rcases List.mem_append.mp hc with hc | hc
    · exact h.past call hc
    · have htime : call.time = b.now := by rw [List.mem_singleton.mp hc]
      exact Nat.le_of_eq htime
  | added solid stopped spare =>
    refine ⟨h.past, fun hq => ?_, fun hq call hc hp => ?_⟩
    · rcases waits_insert hq with hold | ⟨hlast, hnew | ⟨old, hold, hsince⟩⟩
      · exact h.wrote hold
      · exact ⟨by omega, Nat.le_of_eq hlast⟩
      · obtain ⟨h1, h2⟩ := h.wrote hold
        exact ⟨by omega, Nat.le_of_eq hlast⟩
    · rcases waits_insert hq with hold | ⟨-, hnew | ⟨old, hold, hsince⟩⟩
      · exact h.began hold call hc hp
      · rw [hnew]
        exact h.past call hc
      · rw [hsince]
        exact h.began hold call hc hp

/-- **Times are in order** after every run. -/
theorem run_dated {b : Batcher} (ht : Tidy b) (h : Dated b) (ms : List Move) :
    Dated (b.run ms) :=
  (ht.run_induct Work.dated (fun p d ht h => h.write ht p d) h ms).2

/-! ### What a round takes -/

/-- **Why a buffer is due:** it is full, or its pane has been quiet for the interval, or its first
byte has waited for the greatest age. -/
def Due (b : Batcher) (buffer : Buffer) : Prop :=
  b.policy.maxBytes ≤ buffer.data.size ∨ buffer.lastWrite + b.policy.interval ≤ b.now ∨
    buffer.pendingSince + b.policy.maxAge ≤ b.now

theorem Dated.isDue_iff {b : Batcher} (h : Dated b) {p : PaneId} {buffer : Buffer}
    (hw : b.Waits p buffer) : buffer.isDue b.policy b.now = true ↔ b.Due buffer := by
  obtain ⟨h1, h2⟩ := h.wrote hw
  have hquiet : b.policy.interval ≤ b.now - buffer.lastWrite ↔
      buffer.lastWrite + b.policy.interval ≤ b.now := by omega
  have hold : b.policy.maxAge ≤ b.now - buffer.pendingSince ↔
      buffer.pendingSince + b.policy.maxAge ≤ b.now := by omega
  unfold Buffer.isDue Due
  rw [Bool.or_eq_true, Bool.or_eq_true, decide_eq_true_iff, decide_eq_true_iff,
    decide_eq_true_iff, hquiet, hold, or_assoc]

/-- The chunks of a round are the buffers that wait and are due. -/
theorem mem_drained_round {b : Batcher} {c : Chunk} :
    c ∈ b.drained .round ↔ ∃ buffer, b.Waits c.pane buffer ∧
      buffer.isDue b.policy b.now = true ∧ buffer.data = c.data := by
  unfold drained Waits
  rw [mem_chunksWhere]
  simp only [PaneMap.mem_entries, and_assoc]

/-- What a round leaves waiting is what waits and is not due. -/
theorem waits_flushDue {b : Batcher} {p : PaneId} {buffer : Buffer} :
    b.flushDue.2.Waits p buffer ↔ b.Waits p buffer ∧ buffer.isDue b.policy b.now = false := by
  constructor
  · intro h
    exact waits_clearWhere (b := b) h
  · rintro ⟨⟨hf, hi⟩, hdue⟩
    refine ⟨?_, hi⟩
    show (clearWhere (Buffer.isDue b.policy b.now) b.panes).find? p = some buffer
    rw [find?_clearWhere, hf, Option.map_some, if_neg (by rw [hdue]; simp)]

/-! ### What a round says -/

/-- The tracked panes with bytes that a round takes. -/
def relieved (b : Batcher) : List PaneId :=
  b.panes.keys.filter fun p =>
    !(buffered b.panes p).isEmpty && (buffered b.flushDue.2.panes p).isEmpty

theorem mem_relieved {b : Batcher} {p : PaneId} :
    p ∈ b.relieved ↔ b.holds p ∧ buffered b.flushDue.2.panes p = ByteArray.empty := by
  have htracked : b.holds p → p ∈ b.panes.keys := by
    intro h
    obtain ⟨buffer, hf, -⟩ := holds_iff_waits.mp h
    exact PaneMap.mem_keys.mpr ⟨buffer, hf⟩
  unfold relieved
  rw [List.mem_filter, Bool.and_eq_true, isEmpty_iff, Bool.not_eq_true', ← Bool.not_eq_true,
    isEmpty_iff]
  exact ⟨fun h => h.2, fun h => ⟨htracked h.1, h⟩⟩

theorem drained_panes_nodup (b : Batcher) : ((b.drained .round).map Chunk.pane).Nodup :=
  (chunksWhere_panes _ _).nodup b.panes.nodup

/-- **What a round says it has flushed** is what it has. -/
theorem roundCount_fst (b : Batcher) : b.roundCount.1 = b.relieved.length := by
  have hperm : ((b.drained .round).map Chunk.pane).Perm b.relieved := by
    have hnodup : b.relieved.Nodup := b.panes.nodup.filter _
    rw [List.perm_ext_iff_of_nodup (drained_panes_nodup b) hnodup]
    intro p
    exact mem_drained_panes.trans mem_relieved.symm
  rw [← hperm.length_eq, List.length_map, roundCount_eq]
  rfl

/-- **What a round says about the rest** is so. -/
theorem roundCount_snd (b : Batcher) : b.roundCount.2 = true ↔ ∃ p, b.flushDue.2.holds p := by
  constructor
  · intro h
    rw [roundCount_eq] at h
    obtain ⟨⟨p, buffer⟩, hm, hi⟩ := List.any_eq_true.mp h
    exact ⟨p, holds_iff_waits.mpr ⟨buffer, PaneMap.mem_entries.mp hm, by simpa using hi⟩⟩
  · rintro ⟨p, hp⟩
    cases hc : b.roundCount.2 with
    | true => rfl
    | false => exact absurd hp (not_holds_flushDue hc p)

/-! ### The calls of a round -/

/-- The calls that a round makes. -/
def roundCalls (b : Batcher) : List Call := b.sink.attempts b.now (b.drained .round)

/-- Chunks none of whose calls fails are all handed over. -/
theorem Sink.abandoned_of_ok {s : Sink} {now : Nat} {cs : List Chunk}
    (h : ∀ call ∈ s.attempts now cs, call.failed = false) : s.abandoned now cs = [] := by
  induction cs generalizing s with
  | nil => rfl
  | cons c cs ih =>
    unfold Sink.attempts at h
    unfold Sink.abandoned
    obtain ⟨hfirst, hrest⟩ := List.forall_mem_cons.mp h
    replace hfirst : (s.fate 0).isSome = false := hfirst
    rw [hfirst] at hrest ⊢
    exact ih hrest

/-- **A running loop calls the sink in rounds only.** -/
theorem calls_turn {b : Batcher} {loop : Supervisor.State} {period deadline : Nat}
    (htask : b.task = .active loop period deadline) (hrun : loop.isRunning = true) :
    (b.move .turn).sink.calls = b.sink.calls ++ b.roundCalls ∨
      (b.move .turn).sink.calls = b.sink.calls := by
  have hlook : ∀ b loop period, (look b loop period).sink.calls =
      b.sink.calls ++ b.roundCalls := by
    intro b loop period
    have hsink : (look b loop period).sink = b.flushDue.2.sink := by
      unfold look
      generalize b.flushDue = r
      obtain ⟨e, b'⟩ := r
      cases e <;> rfl
    rw [hsink]
    exact drain_calls b .round
  show (b.turn.getD b).sink.calls = _ ∨ (b.turn.getD b).sink.calls = _
  cases h : b.turn with
  | none => exact .inr rfl
  | some b' =>
    show b'.sink.calls = _ ∨ b'.sink.calls = _
    cases turned_of_turn h with
    | ended task phase cancelled =>
      obtain ⟨rfl, -, -⟩ := Task.active.inj (htask.symm.trans task)
      unfold Supervisor.State.isRunning at hrun
      rw [phase] at hrun
      cases hrun
    | woken task phase cancelled wake => exact .inl (hlook _ _ _)
    | ticked task phase cancelled wake due => exact .inl (hlook _ _ _)
    | _ => exact .inr rfl

/-! ### Rounds that spare -/

/-- **Two calls that are not too close:** they bring chunks of different panes, or the later one
brings a full buffer, or the shorter of interval and greatest age lies between them. -/
def Apart (policy : BatchPolicy) (call later : Call) : Prop :=
  later.chunk.pane = call.chunk.pane → later.chunk.data.size < policy.maxBytes →
    call.time + min policy.interval policy.maxAge ≤ later.time

/-- **A round that spares:** it takes what is due and nothing else, it counts right, and its calls
are not too close to the calls before. -/
structure Sparing (b : Batcher) : Prop where
  /-- It takes the whole buffers that are due. -/
  due : ∀ c, c ∈ b.drained .round ↔
    ∃ buffer, b.Waits c.pane buffer ∧ b.Due buffer ∧ c.data = buffer.data
  /-- It takes one chunk of a pane. -/
  single : ((b.drained .round).map Chunk.pane).Nodup
  /-- It adds its calls to those made. -/
  calls : b.flushDue.2.sink.calls = b.sink.calls ++ b.roundCalls
  /-- The calls bring its chunks, in order. -/
  chunks : b.roundCalls.map Call.chunk <+: b.drained .round
  /-- They bring all of them if no call fails. -/
  whole : (∀ call ∈ b.roundCalls, call.failed = false) →
    b.roundCalls.map Call.chunk = b.drained .round
  /-- They are made at once. -/
  moment : ∀ call ∈ b.roundCalls, call.time = b.now
  /-- It leaves the buffers that are not due as they are. -/
  rest : ∀ p buffer, b.flushDue.2.Waits p buffer ↔ b.Waits p buffer ∧ ¬ b.Due buffer
  /-- It says how many panes it took bytes of. -/
  flushed : b.roundCount.1 = b.relieved.length
  /-- It says whether bytes are left. -/
  pending : b.roundCount.2 = true ↔ ∃ p, b.flushDue.2.holds p
  /-- Its calls are not too close to the calls before. -/
  apart : ∀ call ∈ b.sink.calls, ∀ later ∈ b.roundCalls, Apart b.policy call later

theorem Dated.sparing {b : Batcher} (h : Dated b) : Sparing b := by
  have hparts : b.roundCalls.map Call.chunk ++ b.sink.abandoned b.now (b.drained .round) =
      b.drained .round := b.sink.attempts_append_abandoned b.now (b.drained .round)
  have hdue : ∀ c, c ∈ b.drained .round ↔
      ∃ buffer, b.Waits c.pane buffer ∧ b.Due buffer ∧ c.data = buffer.data := by
    intro c
    rw [mem_drained_round]
    constructor
    · rintro ⟨buffer, hw, hready, hdata⟩
      exact ⟨buffer, hw, (h.isDue_iff hw).mp hready, hdata.symm⟩
    · rintro ⟨buffer, hw, hready, hdata⟩
      exact ⟨buffer, hw, (h.isDue_iff hw).mpr hready, hdata.symm⟩
  refine ⟨hdue, drained_panes_nodup b, drain_calls b .round, ⟨_, hparts⟩, fun hok => ?_,
    fun call hc => (Sink.mem_attempts hc).1, fun p buffer => ?_, roundCount_fst b,
    roundCount_snd b, ?_⟩
  · rwa [Sink.abandoned_of_ok hok, List.append_nil] at hparts
  · rw [waits_flushDue]
    refine and_congr_right fun hw => ?_
    rw [← h.isDue_iff hw, Bool.not_eq_true]
  · intro call hc later hl hpane hshort
    obtain ⟨htime, hchunk⟩ := Sink.mem_attempts hl
    obtain ⟨buffer, hw, hready, hdata⟩ := (hdue _).mp hchunk
    -- the call lies before the first byte, which is no later than the last write
    have hcall : call.time ≤ buffer.pendingSince := h.began hw call hc hpane.symm
    obtain ⟨hlast, -⟩ := h.wrote hw
    rw [htime]
    rcases hready with hfull | hquiet | hold
    · rw [hdata] at hshort
      omega
    · omega
    · omega

/-- **Rounds spare.** At every moment of every run, whichever calls of the sink fail, a round takes
the whole buffers that are due and leaves the others alone, it says how many it took and whether
bytes are left, and between a call for a pane and a later one that brings a chunk that is not full
lies the shorter of interval and greatest age. A running loop calls the sink in such rounds only;
the moments within a sleep are those of runs too (`advanceTo_eq_run`). -/
theorem round_sparing (policy : BatchPolicy) (restart : RestartPolicy)
    (fate : Nat → Option String) (ms : List Move) :
    let b := (fresh policy restart fate).run ms
    b.policy = policy ∧ Sparing b ∧ ∀ loop period deadline,
      b.task = .active loop period deadline → loop.isRunning = true →
        (b.move .turn).sink.calls = b.sink.calls ++ b.roundCalls ∨
          (b.move .turn).sink.calls = b.sink.calls := by
  intro b
  have hdated : Dated b :=
    run_dated (tidy_fresh policy restart fate) (dated_fresh policy restart fate) ms
  exact ⟨run_policy _ ms, hdated.sparing, fun _ _ _ htask hrun => calls_turn htask hrun⟩

/-- The bound is reached. Another pane fills its buffer twice, and wakes the loop each time. The first
round leaves the pane alone; the second finds that the interval is over. -/
theorem round_sparing_at_bound :
    let policy : BatchPolicy :=
      { (default : BatchPolicy) with interval := 10, maxAge := 30, maxBytes := 4 }
    let ms : List Move := [.op .start, .turn, .op (.write "%0" "a".toUTF8), .tick 10, .turn,
      .op (.write "%0" "b".toUTF8), .tick 1, .op (.write "%1" "full".toUTF8), .turn, .tick 9,
      .op (.write "%1" "full".toUTF8)]
    let b := (fresh policy default).run ms
    let moments : List Call → List (Nat × PaneId) := List.map fun c => (c.time, c.chunk.pane)
    Sparing b ∧ moments b.roundCalls = [(20, "%0"), (20, "%1")] ∧
      moments (b.move .turn).sink.calls = [(10, "%0"), (11, "%1"), (20, "%0"), (20, "%1")] := by
  intro policy ms b moments
  obtain ⟨-, hsparing, -⟩ := round_sparing policy default (fun _ => none) ms
  exact ⟨hsparing, by decide +kernel, by decide +kernel⟩

end PaneRelay.Batcher
