import Mathlib.Logic.Relation
import PaneRelay.Proofs.Batcher.AtMostOnce
import PaneRelay.Proofs.Batcher.Writers

/-! # The batcher at work

Between two writes a batcher goes through a chain of a few elementary changes, whether the loop takes
its turns, time passes, panes are let go, or a stop runs its course. So what these changes and writes
keep holds after every run.

* `Work`, `Worked`: the elementary changes in which nothing is written, and their chains.
* `advanceTo_eq_run`: the passing of time is turns of the loop and ticks of the clock.
* `run_induct`: what the changes and the writes keep, every run keeps; `Tidy.run_induct` if they keep
  it in a batcher that is in order.
* `Written`, `written_of_write`: what a write can do.
* `Delivers`: what was delivered for a pane between two states.
* `Served`, `Worked.served`: in front of a reliable sink, work leaves what waits for a pane or
  delivers all of it in one chunk. -/

namespace PaneRelay.Batcher

/-! ### Elementary changes -/

/-- **An elementary change** in which nothing is written. -/
inductive Work (b : Batcher) : Batcher → Prop where
  /-- The clock goes on, or something becomes of the loop and the tokens. -/
  | aside {now : Nat} {idle shutdown cancelled : Bool} {task : Task}
      {events : List Supervisor.Event} (later : b.now ≤ now) :
      Work b { b with now, idle, shutdown, cancelled, task, events }
  /-- Some buffers are drained. -/
  | drain (d : Drain) : Work b (b.drain d).2
  /-- A wake-up is taken, and a round follows. -/
  | heed : Work b { (b.drain .round).2 with wake := false }
  /-- The last flush of a stop, with which output begins to pass straight through. -/
  | shut : Work b { (b.drain .last).2 with stopped := true }

/-- **A chain of elementary changes.** -/
def Worked : Batcher → Batcher → Prop := Relation.ReflTransGen Work

namespace Worked

theorem refl (b : Batcher) : Worked b b := Relation.ReflTransGen.refl

theorem single {b b' : Batcher} (h : Work b b') : Worked b b' := Relation.ReflTransGen.single h

theorem trans {a b c : Batcher} (h : Worked a b) (h' : Worked b c) : Worked a c :=
  Relation.ReflTransGen.trans h h'

theorem tail {a b c : Batcher} (h : Worked a b) (h' : Work b c) : Worked a c :=
  Relation.ReflTransGen.tail h h'

/-- What every elementary change keeps, a chain of them keeps. -/
theorem induct {P : Batcher → Prop} (work : ∀ {b b'}, Work b b' → P b → P b') {b b' : Batcher}
    (h : Worked b b') (hb : P b) : P b' := by
  induction h with
  | refl => exact hb
  | tail _ hstep ih => exact work hstep ih

end Worked

/-! ### The loop and the clock -/

/-- After its round a look only sets the loop's tick and its flag, or ends the attempt. -/
theorem work_look (b : Batcher) (loop : Supervisor.State) (period : Nat) :
    Work b.flushDue.2 (b.look loop period) := by
  unfold look
  generalize b.flushDue = r
  obtain ⟨e, b'⟩ := r
  cases e with
  | none => exact .aside (Nat.le_refl _)
  | some e => exact .aside (Nat.le_refl _)

theorem Turned.worked {b b' : Batcher} (h : Turned b b') : Worked b b' := by
  cases h with
  | ended => exact (Worked.single (.drain .last)).tail (.aside (Nat.le_refl _))
  | woken =>
    have hround : Work b (flushDue { b with wake := false }).2 := .heed
    exact (Worked.single hround).tail (work_look _ _ _)
  | ticked => exact (Worked.single (.drain .round)).tail (work_look _ _ _)
  | _ => exact .single (.aside (Nat.le_refl _))

theorem worked_turn (b : Batcher) : Worked b (b.turn.getD b) := by
  cases h : b.turn with
  | none => exact .refl b
  | some b' => exact (turned_of_turn h).worked

theorem worked_turns (n : Nat) (b : Batcher) : Worked b (turns n b) := by
  induction n generalizing b with
  | zero => exact .refl b
  | succ n ih =>
    unfold turns
    cases h : b.turn with
    | none => exact .refl b
    | some b' => exact (turned_of_turn h).worked.trans (ih b')

/-- A turn of the loop, or a tick of the clock. -/
def Move.isPassing : Move → Bool
  | .turn | .tick _ => true
  | _ => false

theorem move_tick {b : Batcher} {t : Nat} (h : b.now ≤ t) :
    b.move (.tick (t - b.now)) = { b with now := t } := by
  show ({ b with now := b.now + (t - b.now) } : Batcher) = { b with now := t }
  rw [Nat.add_sub_cancel' h]

/-- **The passing of time** is turns of the loop and ticks of the clock, so every state on the way is
one that a run may end in. -/
theorem advanceTo_eq_run (fuel : Nat) {till : Nat} {b : Batcher} (h : b.now ≤ till) :
    ∃ ms, (∀ m ∈ ms, m.isPassing = true) ∧ b.advanceTo fuel till = b.run ms := by
  have hlast : ∀ {b : Batcher}, b.now ≤ till →
      ∃ ms, (∀ m ∈ ms, m.isPassing = true) ∧ ({ b with now := till } : Batcher) = b.run ms := by
    intro b hb
    refine ⟨[.tick (till - b.now)], fun m hm => ?_, (move_tick hb).symm⟩
    rw [List.mem_singleton.mp hm]
    rfl
  induction fuel generalizing b with
  | zero => exact hlast h
  | succ fuel ih =>
    unfold advanceTo
    split
    · next t _ =>
      split
      · next ht =>
        -- the clock goes on to the timer, the loop comes to rest, and the rest of the time passes
        obtain ⟨k, hk⟩ := turns_eq_run 16 { b with now := max b.now t }
        have hnow : (settle { b with now := max b.now t }).now = max b.now t := turns_now 16 _
        obtain ⟨ms, hms, he⟩ := ih (b := settle { b with now := max b.now t }) (by omega)
        refine ⟨.tick (max b.now t - b.now) :: List.replicate k .turn ++ ms, fun m hm => ?_, ?_⟩
        · rcases List.mem_append.mp hm with hm | hm
          · rcases List.mem_cons.mp hm with rfl | hm
            · rfl
            · rw [List.eq_of_mem_replicate hm]
              rfl
          · exact hms m hm
        · rw [he, run_append, run_cons, move_tick (Nat.le_max_left _ _), ← hk]
          rfl
      · exact hlast h
    · exact hlast h

theorem worked_passing {ms : List Move} (hms : ∀ m ∈ ms, m.isPassing = true) (b : Batcher) :
    Worked b (b.run ms) := by
  induction ms generalizing b with
  | nil => exact .refl b
  | cons m ms ih =>
    have hrest := ih (fun m' hm => hms m' (List.mem_cons_of_mem _ hm)) (b.move m)
    refine Worked.trans ?_ hrest
    cases m with
    | turn => exact worked_turn b
    | tick k => exact .single (.aside (Nat.le_add_right _ _))
    | op o => exact absurd (hms _ List.mem_cons_self) nofun
    | halt => exact absurd (hms _ List.mem_cons_self) nofun

theorem worked_advance (b : Batcher) (ms : Nat) : Worked b (b.advance ms) := by
  obtain ⟨moves, hmoves, he⟩ := advanceTo_eq_run (ms + 1) (Nat.le_add_right b.now ms)
  unfold advance
  rw [he]
  exact worked_passing hmoves b

/-- **A stop** is the end of the loop, and then the last flush. -/
theorem worked_stop (b : Batcher) : Worked b b.stop.2 := by
  have hcancel : Work b { b with cancelled := true } := .aside (Nat.le_refl _)
  exact ((Worked.single hcancel).trans (worked_turns 16 _)).tail .shut

theorem worked_start (b : Batcher) : Worked b b.start := by
  unfold start
  split
  · split
    · exact .refl b
    · exact .single (.aside (Nat.le_refl _))
  · exact .refl b

/-! ### Runs -/

section Induct
variable {P : Batcher → Prop} {b : Batcher}

/-- What elementary changes and writes keep, every move keeps. -/
theorem move_induct (work : ∀ {b b'}, Work b b' → P b → P b')
    (write : ∀ {b} p d, P b → P (b.write p d).2) (h : P b) (m : Move) : P (b.move m) := by
  have hworked : ∀ {b'}, Worked b b' → P b' := fun hw => hw.induct work h
  cases m with
  | turn => exact hworked (worked_turn b)
  | tick k => exact hworked (.single (.aside (Nat.le_add_right _ _)))
  | halt => exact hworked (.single (.aside (Nat.le_refl _)))
  | op o =>
    cases o with
    | start => exact hworked (worked_start b)
    | write p d => exact write p d h
    | writes items => exact writeAll_induct (fun _ p d => write p d) h items
    | sleep ms => exact hworked (worked_advance b ms)
    | remove p => exact hworked (.single (.drain (.remove p)))
    | retain live => exact hworked (.single (.drain (.retain fun p => live.contains p)))
    | cancel => exact hworked (.single (.aside (Nat.le_refl _)))
    | stop => exact hworked (worked_stop b)

/-- **What elementary changes and writes keep, every run keeps.** -/
theorem run_induct (work : ∀ {b b'}, Work b b' → P b → P b')
    (write : ∀ {b} p d, P b → P (b.write p d).2) (h : P b) (ms : List Move) : P (b.run ms) := by
  induction ms generalizing b with
  | nil => exact h
  | cons m ms ih => exact ih (move_induct work write h m)

end Induct

theorem run_policy (b : Batcher) (ms : List Move) : (b.run ms).policy = b.policy := by
  induction ms generalizing b with
  | nil => rfl
  | cons m ms ih => exact (ih _).trans (move_policy b m)

/-! ### What a write does -/

/-- Whether a write fills the buffer of its pane. -/
def crosses (b : Batcher) (p : PaneId) (d : ByteArray) : Bool :=
  (buffered b.panes p).size < b.policy.maxBytes &&
    b.policy.maxBytes ≤ (buffered b.panes p).size + d.size

/-- **What a write can do**, and what it answers. -/
inductive Written (b : Batcher) (p : PaneId) (d : ByteArray) : Option String × Batcher → Prop where
  /-- There is nothing to write. -/
  | nothing (blank : d = ByteArray.empty) : Written b p d (none, b)
  /-- The output passes straight through. -/
  | passed (solid : d ≠ ByteArray.empty) (stopped : b.stopped = true) :
      Written b p d ((b.sink.deliver b.now ⟨p, d⟩).1,
        { b with sink := (b.sink.deliver b.now ⟨p, d⟩).2 })
  /-- The output waits, and may leave a wake-up. -/
  | added {pool : List ByteArray} (solid : d ≠ ByteArray.empty) (stopped : b.stopped = false)
      (spare : pool.Sublist b.pool) :
      Written b p d (none, { b with
        panes := b.panes.insert p ((b.bufferOf p).add d b.now), pool
        wake := b.crosses p d || ((b.bufferOf p).isIdle && b.idle) || b.wake })

theorem append_crosses {b : Batcher} (hb : b.Pooled) (p : PaneId) (d : ByteArray) :
    ∃ pool, pool.Sublist b.pool ∧ b.append p d =
      ({ b with panes := b.panes.insert p ((b.bufferOf p).add d b.now), pool },
        (b.bufferOf p).isIdle, b.crosses p d) := by
  have hadd : ∀ buffer : Buffer, (buffer.add d b.now).data.size = buffer.data.size + d.size :=
    fun buffer => ByteArray.size_append
  unfold append bufferOf crosses buffered
  cases b.panes.find? p with
  | some old =>
    refine ⟨b.pool, List.Sublist.refl _, ?_⟩
    simp only [hadd]
    rfl
  | none =>
    unfold takeBuffer
    cases hpool : b.pool with
    | nil =>
      refine ⟨[], List.Sublist.refl _, ?_⟩
      simp only [hadd]
      rfl
    | cons e pool =>
      obtain rfl : e = ByteArray.empty := hb e (by rw [hpool]; exact List.mem_cons_self)
      refine ⟨pool, List.sublist_cons_self _ _, ?_⟩
      simp only [hadd]
      rfl

/-- **A write does one of these things.** -/
theorem written_of_write {b : Batcher} (hb : b.Pooled) (p : PaneId) (d : ByteArray) :
    Written b p d (b.write p d) := by
  unfold write
  by_cases hd : d.isEmpty = true
  · rw [if_pos hd]
    exact .nothing (isEmpty_iff.mp hd)
  rw [if_neg hd]
  have hd : d ≠ ByteArray.empty := fun he => hd (isEmpty_iff.mpr he)
  by_cases hs : b.stopped = true
  · rw [if_pos hs]
    exact .passed hd hs
  · rw [if_neg hs]
    obtain ⟨pool, hpool, ha⟩ := append_crosses hb p d
    rw [ha]
    have hsignal : signal { b with
        panes := b.panes.insert p ((b.bufferOf p).add d b.now), pool } (b.bufferOf p).isIdle
        (b.crosses p d) = { b with
        panes := b.panes.insert p ((b.bufferOf p).add d b.now), pool
        wake := b.crosses p d || ((b.bufferOf p).isIdle && b.idle) || b.wake } := by
      unfold signal
      simp only
      cases b.crosses p d || ((b.bufferOf p).isIdle && b.idle) <;> rfl
    simp only [hsignal]
    exact .added hd (by simpa using hs) hpool

/-! ### What is kept -/

theorem write_now (b : Batcher) (p : PaneId) (d : ByteArray) : (b.write p d).2.now = b.now := by
  unfold write
  split
  · rfl
  · split
    · rfl
    · have h : (b.append p d).1.now = b.now := rfl
      generalize b.append p d = r at h
      obtain ⟨b', first, crossed⟩ := r
      show (b'.signal first crossed).now = b.now
      unfold signal
      split <;> exact h

theorem drain_now (b : Batcher) (d : Drain) : (b.drain d).2.now = b.now := by
  obtain ⟨pool, -, hd⟩ := drain_eq b d
  rw [hd]

theorem drain_policy (b : Batcher) (d : Drain) : (b.drain d).2.policy = b.policy := by
  obtain ⟨pool, -, hd⟩ := drain_eq b d
  rw [hd]

theorem drain_stopped (b : Batcher) (d : Drain) : (b.drain d).2.stopped = b.stopped := by
  obtain ⟨pool, -, hd⟩ := drain_eq b d
  rw [hd]

theorem drain_wake (b : Batcher) (d : Drain) : (b.drain d).2.wake = b.wake := by
  obtain ⟨pool, -, hd⟩ := drain_eq b d
  rw [hd]

/-- A buffer was drained if bytes waited in it and none are left. -/
theorem mem_drained_panes {b : Batcher} {d : Drain} {p : PaneId} :
    p ∈ (b.drained d).map Chunk.pane ↔
      b.holds p ∧ buffered (b.drain d).2.panes p = ByteArray.empty := by
  have hmem : p ∈ (b.drained d).map Chunk.pane ↔ dataOf p (b.drained d) ≠ [] := by
    unfold dataOf
    rw [ne_eq, List.map_eq_nil_iff, List.filter_eq_nil_iff, List.mem_map]
    simp
  rw [hmem, drain_panes]
  rcases dataOf_drained b d p with ⟨hnone, hrest⟩ | ⟨hone, hwaits, hempty⟩
  · rw [hnone, hrest]
    exact iff_of_false (fun h => h rfl) fun ⟨h, he⟩ => h he
  · rw [hone]
    exact iff_of_true (List.cons_ne_nil _ _) ⟨hwaits, hempty⟩

namespace Work

variable {b b' : Batcher}

theorem now_le (h : Work b b') : b.now ≤ b'.now := by
  cases h with
  | aside later => exact later
  | _ => exact Nat.le_of_eq (drain_now b _).symm

theorem policy_eq (h : Work b b') : b'.policy = b.policy := by
  cases h with
  | aside later => rfl
  | _ => exact drain_policy b _

theorem stopped (h : Work b b') (hs : b.stopped = true) : b'.stopped = true := by
  cases h with
  | aside later => exact hs
  | shut => rfl
  | _ => exact (drain_stopped b _).trans hs

theorem tidy (h : Work b b') (ht : Tidy b) : Tidy b' := by
  cases h with
  | aside later => exact ⟨ht.pool, ht.solid, ht.passing⟩
  | drain d => exact (Takes.drain b d).tidy ht
  | heed =>
    have h := (Takes.drain b .round).tidy ht
    exact ⟨h.pool, h.solid, h.passing⟩
  | shut =>
    have h := (Takes.drain b .last).tidy ht
    exact ⟨h.pool, h.solid, fun _ => buffered_clearAll b.panes⟩

end Work

/-- **What elementary changes and writes keep in a batcher that is in order**, every run keeps. -/
theorem Tidy.run_induct {P : Batcher → Prop} {b : Batcher} (ht : Tidy b)
    (work : ∀ {b b'}, Work b b' → P b → P b')
    (write : ∀ {b} p d, Tidy b → P b → P (b.write p d).2) (h : P b) (ms : List Move) :
    Tidy (b.run ms) ∧ P (b.run ms) :=
  Batcher.run_induct (P := fun b => Tidy b ∧ P b) (fun hw ⟨ht, h⟩ => ⟨hw.tidy ht, work hw h⟩)
    (fun p d ⟨ht, h⟩ => ⟨(Wrote.write ht p d).tidy, write p d ht h⟩) ⟨ht, h⟩ ms

/-! ### What is delivered -/

/-- The calls that were made for a pane. -/
def callsOf (p : PaneId) (b : Batcher) : List Call :=
  b.sink.calls.filter fun c => c.chunk.pane = p

/-- **What was delivered for a pane** between two states: the calls in between succeeded, and these
are their data. -/
def Delivers (b b' : Batcher) (p : PaneId) (ds : List ByteArray) : Prop :=
  ∃ calls, callsOf p b' = callsOf p b ++ calls ∧ calls.map (fun c => c.chunk.data) = ds ∧
    ∀ c ∈ calls, c.failed = false ∧ b.now ≤ c.time ∧ c.time ≤ b'.now

namespace Delivers

variable {b b' b'' : Batcher} {p : PaneId} {ds es : List ByteArray}

theorem of_sink (h : b'.sink = b.sink) : Delivers b b' p [] := by
  refine ⟨[], ?_, rfl, fun c hc => absurd hc List.not_mem_nil⟩
  unfold callsOf
  rw [h, List.append_nil]

theorem trans (h : Delivers b b' p ds) (h' : Delivers b' b'' p es) (hle : b.now ≤ b'.now)
    (hle' : b'.now ≤ b''.now) : Delivers b b'' p (ds ++ es) := by
  obtain ⟨calls, hcalls, hds, hgood⟩ := h
  obtain ⟨calls', hcalls', hes, hgood'⟩ := h'
  refine ⟨calls ++ calls', ?_, ?_, fun c hc => ?_⟩
  · rw [hcalls', hcalls, List.append_assoc]
  · rw [List.map_append, hds, hes]
  · rcases List.mem_append.mp hc with hc | hc
    · obtain ⟨hok, h1, h2⟩ := hgood c hc
      exact ⟨hok, h1, Nat.le_trans h2 hle'⟩
    · obtain ⟨hok, h1, h2⟩ := hgood' c hc
      exact ⟨hok, Nat.le_trans hle h1, h2⟩

/-- Chunks that the sink took. -/
theorem of_took {cs : List Chunk} (hsink : b'.sink = b.sink.took b.now cs) (hle : b.now ≤ b'.now) :
    Delivers b b' p (dataOf p cs) := by
  refine ⟨(cs.filter fun c => c.pane = p).map fun c => ⟨b.now, c, false⟩, ?_, ?_, fun c hc => ?_⟩
  · unfold callsOf
    rw [hsink, Sink.took, List.filter_append, List.filter_map]
    rfl
  · rw [List.map_map]
    rfl
  · obtain ⟨chunk, -, rfl⟩ := List.mem_map.mp hc
    exact ⟨rfl, Nat.le_refl _, hle⟩

end Delivers

/-- A drain in front of a reliable sink delivers all of its chunks. -/
theorem drain_reliable {b : Batcher} (h : b.sink.Reliable) (d : Drain) :
    ∃ pool, b.drain d = (none, { b with
      panes := b.remaining d, pool, sink := b.sink.took b.now (b.drained d) }) := by
  obtain ⟨pool, -, hd⟩ := drain_eq b d
  rw [Sink.deliverAll_eq h] at hd
  exact ⟨pool, hd⟩

theorem delivers_drain {b : Batcher} (h : b.sink.Reliable) (d : Drain) (p : PaneId) :
    Delivers b (b.drain d).2 p (dataOf p (b.drained d)) := by
  obtain ⟨pool, hd⟩ := drain_reliable h d
  rw [hd]
  exact .of_took rfl (Nat.le_refl _)

/-- **What becomes of a pane's buffer** at work, in front of a reliable sink: it stays, or all of it
is delivered as one chunk. -/
inductive Served (p : PaneId) (b b' : Batcher) : Prop where
  | kept (calls : Delivers b b' p []) (rest : buffered b'.panes p = buffered b.panes p)
  | taken (calls : Delivers b b' p [buffered b.panes p])
      (waits : buffered b.panes p ≠ ByteArray.empty) (rest : buffered b'.panes p = ByteArray.empty)

namespace Served

variable {p : PaneId} {a b c : Batcher}

theorem trans (h : Served p a b) (h' : Served p b c) (hab : a.now ≤ b.now) (hbc : b.now ≤ c.now) :
    Served p a c := by
  cases h with
  | kept calls rest =>
    cases h' with
    | kept calls' rest' => exact .kept (calls.trans calls' hab hbc) (rest'.trans rest)
    | taken calls' waits rest' =>
      rw [rest] at calls' waits
      exact .taken (calls.trans calls' hab hbc) waits rest'
  | taken calls waits rest =>
    cases h' with
    | kept calls' rest' => exact .taken (calls.trans calls' hab hbc) waits (rest'.trans rest)
    | taken _ waits' _ => exact absurd rest waits'

/-- A buffer that is empty in the end was delivered, if there was something in it. -/
theorem delivers_piece (h : Served p a b) (hrest : buffered b.panes p = ByteArray.empty) :
    Delivers a b p (piece (buffered a.panes p)) := by
  cases h with
  | kept calls rest =>
    rw [← rest, hrest]
    exact calls
  | taken calls waits rest =>
    rw [piece_of_ne waits]
    exact calls

/-- From an empty buffer nothing is delivered. -/
theorem delivers_nil (h : Served p a b) (hnone : buffered a.panes p = ByteArray.empty) :
    Delivers a b p [] ∧ buffered b.panes p = ByteArray.empty := by
  cases h with
  | kept calls rest => exact ⟨calls, rest.trans hnone⟩
  | taken calls waits rest => exact absurd hnone waits

theorem drain (h : a.sink.Reliable) (d : Drain) : Served p a (a.drain d).2 := by
  have hcalls := delivers_drain h d p
  rcases dataOf_drained a d p with ⟨hnone, hrest⟩ | ⟨hone, hwaits, hrest⟩
  · rw [hnone] at hcalls
    exact .kept hcalls (by rwa [drain_panes])
  · rw [hone] at hcalls
    exact .taken hcalls hwaits (by rwa [drain_panes])

end Served

theorem Work.reliable {b b' : Batcher} (h : Work b b') (hr : b.sink.Reliable) :
    b'.sink.Reliable := by
  have hdrain : ∀ d, (b.drain d).2.sink.Reliable := by
    intro d
    obtain ⟨pool, hd⟩ := drain_reliable hr d
    rw [hd]
    exact hr.took _ _
  cases h with
  | aside later => exact hr
  | _ => exact hdrain _

theorem Work.served {b b' : Batcher} (h : Work b b') (hr : b.sink.Reliable) (p : PaneId) :
    Served p b b' := by
  -- flags do not count
  have hflags : ∀ {d : Drain} {b' : Batcher}, b'.sink = (b.drain d).2.sink →
      b'.panes = (b.drain d).2.panes → b'.now = (b.drain d).2.now → Served p b b' := by
    intro d b' hsink hpanes hnow
    have hd := Served.drain (p := p) hr d
    have hcalls : ∀ {ds}, Delivers b (b.drain d).2 p ds → Delivers b b' p ds := by
      intro ds h
      unfold Delivers callsOf at h ⊢
      rwa [hsink, hnow]
    cases hd with
    | kept calls rest => exact .kept (hcalls calls) (by rw [hpanes, rest])
    | taken calls waits rest => exact .taken (hcalls calls) waits (by rw [hpanes, rest])
  cases h with
  | aside later => exact .kept (.of_sink rfl) rfl
  | drain d => exact Served.drain hr d
  | heed => exact hflags rfl rfl rfl
  | shut => exact hflags rfl rfl rfl

/-- A write in front of a reliable sink succeeds. -/
theorem write_reliable {b : Batcher} (h : b.sink.Reliable) (hb : b.Pooled) (p : PaneId)
    (d : ByteArray) : (b.write p d).1 = none ∧ (b.write p d).2.sink.Reliable := by
  have hw := written_of_write hb p d
  generalize b.write p d = r at hw
  cases hw with
  | nothing => exact ⟨rfl, h⟩
  | passed =>
    rw [Sink.deliver_eq h]
    exact ⟨rfl, h.took _ _⟩
  | added => exact ⟨rfl, h⟩

/-- **A reliable sink stays one**, and the batcher in order. -/
theorem run_reliable {b : Batcher} (ht : Tidy b) (h : b.sink.Reliable) (ms : List Move) :
    Tidy (b.run ms) ∧ (b.run ms).sink.Reliable :=
  ht.run_induct Work.reliable (fun p d ht h => (write_reliable h ht.pool p d).2) h ms

/-- **Work in front of a reliable sink** leaves what waits for a pane, or delivers it in one chunk. -/
theorem Worked.served {b b' : Batcher} (h : Worked b b') (hr : b.sink.Reliable) (p : PaneId) :
    b'.sink.Reliable ∧ b.now ≤ b'.now ∧ Served p b b' := by
  induction h with
  | refl => exact ⟨hr, Nat.le_refl _, .kept (.of_sink rfl) rfl⟩
  | tail _ hstep ih =>
    obtain ⟨hreliable, hle, hserved⟩ := ih
    exact ⟨hstep.reliable hreliable, Nat.le_trans hle hstep.now_le,
      hserved.trans (hstep.served hreliable p) hle hstep.now_le⟩

end PaneRelay.Batcher
