import PaneRelay.Proofs.Batcher.Writers

/-! # Writes that nobody hears

An idle loop sleeps longer and longer, and relies on writers to wake it. A writer does so when the
flag says that the loop is idle. But the flag is set after the round that found nothing, and a
writer may come in between: it sees the old flag, wakes nobody, and the loop goes to sleep with the
bytes of that write in a buffer.

So a long sleep does not mean that nothing waits. What waits is what came in that gap, no more and
no less, and it is heard of at the end of a sleep of twice the tick.

* `Gap`, `Long`, `Kept`: what holds between the halves of a look, in a long sleep, and always.
* `Kept.step`: every step keeps it.
* `holds_iff_slipped`: whose bytes a long sleep leaves waiting.
* `late_write_unheard`: a write that it leaves waiting. -/

namespace PaneRelay.Batcher.Crew

/-! ### What every step keeps -/

/-- Whether the loop is about to be woken: a wake-up is stored, or a writer whose bytes found an empty
buffer has still to look at the flag. -/
def Alarmed (c : Crew) : Prop := c.batcher.wake = true ∨ ∃ e ∈ c.errands, e.first = true

/-- **Between the halves of a look** that found nothing, the panes whose bytes wait are those that
have slipped, and one of their writers will wake the loop unless the flag was down. -/
structure Gap (c : Crew) (f : Finding) : Prop where
  period : c.batcher.idle = false → f.period = c.batcher.policy.interval
  holds : f.isIdle = true → ∀ p, c.batcher.holds p ↔ p ∈ c.slipped
  noticed : f.isIdle = true → c.slipped ≠ [] → c.Alarmed ∨ c.batcher.idle = false

/-- **In a long sleep** the flag is up, so only the panes that have slipped before can have bytes that
wait and no writer that wakes the loop. -/
structure Long (c : Crew) (period : Nat) : Prop where
  idle : c.batcher.idle = true
  holds : ∀ p ∈ c.slipped, c.batcher.holds p
  noticed : ∀ p, c.batcher.holds p → p ∈ c.slipped ∨ c.Alarmed
  first : c.slipped ≠ [] → c.Alarmed ∨
    period = min (c.batcher.policy.interval * 2) c.batcher.policy.idleInterval

/-- **What every step keeps.** -/
structure Kept (c : Crew) : Prop where
  pool : c.batcher.Pooled
  /-- As long as the flag is down the loop keeps the base tick. -/
  base : ∀ s, c.sleep? = some s → c.batcher.idle = false → s.period = c.batcher.policy.interval
  gap : ∀ f, c.found = some f → c.Gap f
  long : ∀ s, c.sleep? = some s → c.batcher.policy.interval < s.period → c.Long s.period

namespace Kept

variable {c d : Crew}

/-- A loop that does not sleep long, and is not between the halves of a look. -/
theorem of_base (hpool : c.batcher.Pooled) (hfound : c.found = none)
    (hs : ∀ s, c.sleep? = some s → s.period = c.batcher.policy.interval) : Kept c where
  pool := hpool
  base s h _ := hs s h
  gap f h := by rw [hfound] at h; cases h
  long s h hlong := by have := hs s h; omega

/-- The clock, the tokens and the sink do not count, nor does a task that goes to no other sleep. -/
theorem aside (h : Kept c) {now : Nat} {shutdown cancelled stopped : Bool} {task : Task}
    {sink : Sink} {events : List Supervisor.Event}
    (hs : ∀ s, sleep? { c with batcher := { c.batcher with
      now, shutdown, cancelled, stopped, task, sink, events } } = some s → c.sleep? = some s) :
    Kept { c with batcher := { c.batcher with
      now, shutdown, cancelled, stopped, task, sink, events } } where
  pool := h.pool
  base s hd := h.base s (hs s hd)
  gap f hf := ⟨(h.gap f hf).period, (h.gap f hf).holds, (h.gap f hf).noticed⟩
  long s hd hlong :=
    have hl := h.long s (hs s hd) hlong
    ⟨hl.idle, hl.holds, hl.noticed, hl.first⟩

/-- **A round** begins a look with nothing that has slipped. -/
theorem rouse {s : Sleep} (hpool : c.batcher.Pooled) (hloop : s.loop.isRunning = true)
    (hbase : c.batcher.idle = false → s.period = c.batcher.policy.interval) :
    Kept (c.rouse s) := by
  rcases round_cases c.batcher s.loop s.period with hr | ⟨e, events, hr⟩
  · have he : c.rouse s = { c with
        batcher := c.batcher.flushDue.2
        found := some ⟨s.loop, s.period, c.batcher.roundCount.1, c.batcher.roundCount.2⟩
        slipped := [] } := by
      simp only [Crew.rouse, hr]
    have hawake : (c.rouse s).sleep? = none := by rw [he]; rfl
    refine ⟨by rw [he]; exact hpool, fun t ht => ?_, fun f hf => ?_, fun t ht => ?_⟩
    · rw [hawake] at ht; cases ht
    · rw [he] at hf ⊢
      cases hf
      refine ⟨hbase, fun hi p => iff_of_false ?_ List.not_mem_nil, fun _ hne => absurd rfl hne⟩
      simp only [Finding.isIdle, Bool.and_eq_true, Bool.not_eq_true'] at hi
      exact not_holds_flushDue hi.2 p
    · rw [hawake] at ht; cases ht
  · -- the sink failed, so the attempt is over
    have hover : (s.loop.finish c.batcher.restart loopName c.batcher.now
        (.panicked (some e))).isRunning = false :=
      Supervisor.State.isRunning_finish hloop rfl
    unfold Crew.rouse
    rw [hr]
    refine of_base hpool rfl fun t ht => ?_
    obtain ⟨loop, period, deadline⟩ := t
    obtain ⟨-, ht, hrun⟩ := sleep?_eq_some.mp ht
    cases ht
    exact absurd (hover.symm.trans hrun) (by decide)

/-- **The second half of a look.** -/
theorem conclude {f : Finding} (h : Kept c) (hf : c.found = some f) :
    Kept { c with batcher := c.batcher.conclude f, found := none } := by
  have hgap := h.gap f hf
  have hperiod : ∀ s, sleep? { c with batcher := c.batcher.conclude f, found := none } = some s →
      s.period = if f.isIdle then min (f.period * 2) c.batcher.policy.idleInterval
        else c.batcher.policy.interval := by
    intro ⟨loop, period, deadline⟩ hs
    obtain ⟨-, ht, -⟩ := sleep?_eq_some.mp hs
    cases ht
    rfl
  refine ⟨h.pool, fun s hs hi => ?_, fun g hg => (by cases hg), fun s hs hlong => ?_⟩
  · rw [hperiod s hs, show f.isIdle = false from hi]
    rfl
  · rw [hperiod s hs] at hlong ⊢
    cases hi : f.isIdle with
    | false =>
      rw [hi] at hlong
      exact absurd hlong (Nat.lt_irrefl _)
    | true =>
      refine ⟨hi, fun p => (hgap.holds hi p).mpr, fun p hp => .inl ((hgap.holds hi p).mp hp),
        fun hne => (hgap.noticed hi hne).imp id fun hflag => ?_⟩
      rw [hgap.period hflag]
      rfl

/-- **The first half of a write.** -/
theorem append (h : Kept c) (p : PaneId) {data : ByteArray} (hd : data ≠ ByteArray.empty) :
    Kept { c with
      batcher := (c.batcher.append p data).1
      errands := c.errands ++ [⟨(c.batcher.append p data).2.1, (c.batcher.append p data).2.2⟩]
      slipped := if c.found.isSome then p :: c.slipped else c.slipped } := by
  obtain ⟨hholds, hfirst⟩ := holds_append h.pool p hd
  generalize hc' : ({ c with
      batcher := (c.batcher.append p data).1
      errands := c.errands ++ [⟨(c.batcher.append p data).2.1, (c.batcher.append p data).2.2⟩]
      slipped := if c.found.isSome then p :: c.slipped else c.slipped } : Crew) = c'
  have hbatcher : c'.batcher = (c.batcher.append p data).1 := by rw [← hc']
  have hsleep : c'.sleep? = c.sleep? := by rw [← hc']; rfl
  have halarm : c.Alarmed → c'.Alarmed := by
    rw [← hc']
    exact Or.imp id fun ⟨e, he, hf⟩ => ⟨e, List.mem_append_left _ he, hf⟩
  -- a writer that does not wake the loop has found bytes that waited
  have hnew : c'.Alarmed ∨ c.batcher.holds p := by
    cases hb : (c.batcher.append p data).2.1 with
    | false => exact .inr (hfirst hb)
    | true =>
      left
      rw [← hc', ← hb]
      exact .inr ⟨_, List.mem_append_right _ (List.mem_singleton_self _), hb⟩
  rw [← hbatcher] at hholds
  have hpolicy : c'.batcher.policy = c.batcher.policy := by rw [hbatcher]; rfl
  have hidle : c'.batcher.idle = c.batcher.idle := by rw [hbatcher]; rfl
  refine ⟨by rw [hbatcher]; exact h.pool.append p data, fun s hs => ?_, fun f hf => ?_,
    fun s hs hlong => ?_⟩
  · rw [hpolicy, hidle]
    exact h.base s (hsleep ▸ hs)
  · have hfound : c.found = some f := by rw [← hf, ← hc']
    have hslipped : c'.slipped = p :: c.slipped := by simp [← hc', hfound]
    obtain ⟨hperiod, hwho, hnoticed⟩ := h.gap f hfound
    refine ⟨by rw [hpolicy, hidle]; exact hperiod, fun hi q => ?_, fun hi _ => ?_⟩
    · rw [hholds, hwho hi, hslipped, List.mem_cons]
    · rw [hidle]
      rcases hnew with hnew | hold
      · exact .inl hnew
      · exact (hnoticed hi (List.ne_nil_of_mem ((hwho hi p).mp hold))).imp halarm id
  · rw [hsleep] at hs
    rw [hpolicy] at hlong
    have hfound : c.found = none := (sleep?_eq_some.mp hs).1
    have hslipped : c'.slipped = c.slipped := by simp [← hc', hfound]
    obtain ⟨hflag, hkept, hnoticed, hlast⟩ := h.long s hs hlong
    refine ⟨hidle.trans hflag, fun q hq => ?_, fun q hq => ?_, fun hne => ?_⟩
    · rw [hslipped] at hq
      exact (hholds q).mpr (.inr (hkept q hq))
    · rw [hslipped]
      rcases (hholds q).mp hq with rfl | hq
      · rcases hnew with hnew | hold
        · exact .inr hnew
        · exact (hnoticed q hold).imp id halarm
      · exact (hnoticed q hq).imp id halarm
    · rw [hslipped] at hne
      rw [hpolicy]
      exact (hlast hne).imp halarm id

/-- **The second half of a write.** -/
theorem test (h : Kept c) {i : Nat} {e : Errand} (he : c.errands[i]? = some e) :
    Kept { c with batcher := c.batcher.signal e.first e.crossed
                  errands := c.errands.eraseIdx i } := by
  have hsignal : c.batcher.signal e.first e.crossed = { c.batcher with
      wake := (e.crossed || (e.first && c.batcher.idle)) || c.batcher.wake } := by
    unfold signal
    cases e.crossed || (e.first && c.batcher.idle) <;> rfl
  rw [hsignal]
  -- the writer itself wakes the loop, unless the flag is down
  have halarm : c.Alarmed → Alarmed { c with
      batcher := { c.batcher with
        wake := (e.crossed || (e.first && c.batcher.idle)) || c.batcher.wake }
      errands := c.errands.eraseIdx i } ∨ c.batcher.idle = false := by
    rintro (hw | ⟨e', he', hfirst⟩)
    · exact .inl (.inl (by simp [hw]))
    · obtain ⟨j, hj⟩ := List.mem_iff_getElem?.mp he'
      by_cases hij : j = i
      · subst hij
        obtain rfl : e = e' := Option.some.inj (he.symm.trans hj)
        cases hi : c.batcher.idle with
        | false => exact .inr rfl
        | true => exact .inl (.inl (by simp [hfirst]))
      · exact .inl (.inr ⟨e', List.mem_eraseIdx_iff_getElem?.mpr ⟨j, hij, hj⟩, hfirst⟩)
  refine ⟨h.pool, h.base, fun f hf => ?_, fun s hs hlong => ?_⟩
  · obtain ⟨hperiod, hwho, hnoticed⟩ := h.gap f hf
    exact ⟨hperiod, hwho, fun hi hne => (hnoticed hi hne).elim halarm .inr⟩
  · obtain ⟨hflag, hkept, hnoticed, hlast⟩ := h.long s hs hlong
    have hup : ¬ c.batcher.idle = false := by simp [hflag]
    exact ⟨hflag, hkept,
      fun p hp => (hnoticed p hp).imp id fun ha => (halarm ha).resolve_right hup,
      fun hne => (hlast hne).imp (fun ha => (halarm ha).resolve_right hup) id⟩

/-- **Panes that are let go** have not slipped any more. -/
theorem retain (h : Kept c) (live : PaneId → Bool) :
    Kept { c with batcher := (c.batcher.retain live).2.2, slipped := c.slipped.filter live } := by
  obtain ⟨pool, sink, hpool, hr⟩ := retain_parts h.pool live
  rw [hr]
  refine ⟨hpool, h.base, fun f hf => ?_, fun s hs hlong => ?_⟩
  · obtain ⟨hperiod, hwho, hnoticed⟩ := h.gap f hf
    refine ⟨hperiod, fun hi p => ?_, fun hi hne => hnoticed hi ?_⟩
    · rw [holds_keep, hwho hi, List.mem_filter]
    · rintro hnil
      exact hne (by rw [hnil]; rfl)
  · obtain ⟨hflag, hkept, hnoticed, hlast⟩ := h.long s hs hlong
    refine ⟨hflag, fun p hp => ?_, fun p hp => ?_, fun hne => hlast ?_⟩
    · rw [List.mem_filter] at hp
      exact holds_keep.mpr ⟨hkept p hp.1, hp.2⟩
    · obtain ⟨hp, hl⟩ := holds_keep.mp hp
      exact (hnoticed p hp).imp (fun hs => List.mem_filter.mpr ⟨hs, hl⟩) id
    · rintro hnil
      exact hne (by rw [hnil]; rfl)

theorem supervised (h : Kept c) (hd : c.supervised = some d) : Kept d := by
  unfold Crew.supervised at hd
  split at hd
  · cases hd
  next hf =>
  have hfound : c.found = none := by simpa using hf
  split at hd
  · split at hd
    · cases hd
      exact h.aside fun s hs => hs
    · cases hd
  next hawake =>
  obtain ⟨b', ht, rfl⟩ := Option.map_eq_some_iff.mp hd
  -- an attempt that is not running does not sleep
  have hoff : ∀ {loop : Supervisor.State} {period deadline : Nat} {events : List Supervisor.Event},
      loop.isRunning = false → ∀ s, sleep? { c with batcher := { c.batcher with
        task := .active loop period deadline, events } } ≠ some s := by
    rintro loop period deadline events hl ⟨loop', period', deadline'⟩ hs
    obtain ⟨-, hs, hrun⟩ := sleep?_eq_some.mp hs
    cases hs
    exact absurd (hl.symm.trans hrun) (by decide)
  -- an attempt that is running and not cancelled takes no such step
  have hon : ∀ {loop : Supervisor.State} {period deadline since : Nat},
      c.batcher.task = .active loop period deadline → loop.phase = .running since →
        c.batcher.cancelled = false → False := by
    intro loop period deadline since htask hphase hcancel
    have hs : c.sleep? = some ⟨loop, period, deadline⟩ :=
      sleep?_eq_some.mpr ⟨hfound, htask, by simp [Supervisor.State.isRunning, hphase]⟩
    exact hawake (by simp [hs, hcancel])
  cases turned_of_turn ht with
  | ended =>
    refine of_base h.pool hfound fun s hs => ?_
    obtain ⟨-, hs, -⟩ := sleep?_eq_some.mp hs
    cases hs
  | linked => exact h.aside fun s hs => hs
  | @dropped loop _ _ task phase cancelled =>
    have hl : loop.cancel.isRunning = false := by
      unfold Supervisor.State.cancel
      split
      · next o hp => exact absurd hp (phase o)
      · rfl
    exact of_base h.pool hfound fun s hs => absurd hs (hoff hl s)
  | began task phase cancelled =>
    refine of_base h.pool hfound ?_
    rintro ⟨loop', period, deadline⟩ hs
    obtain ⟨-, hs, -⟩ := sleep?_eq_some.mp hs
    cases hs
    rfl
  | woken task phase cancelled => exact (hon task phase cancelled).elim
  | ticked task phase cancelled => exact (hon task phase cancelled).elim
  | @resumed loop _ _ ends task phase cancelled =>
    have hl : (loop.resume c.batcher.restart).isRunning = false := by
      simp [Supervisor.State.resume, Supervisor.State.isRunning, phase]
    exact of_base h.pool hfound fun s hs => absurd hs (hoff hl s)

theorem start (h : Kept c) : Kept { c with batcher := c.batcher.start } := by
  unfold Batcher.start
  split
  · split
    · exact h
    · refine h.aside ?_
      rintro ⟨loop, period, deadline⟩ hs
      obtain ⟨-, hs, hrun⟩ := sleep?_eq_some.mp hs
      cases hs
      cases hrun
  · exact h

/-- **The last flush** leaves nothing, and the loop is over by then. -/
theorem shut (h : Kept c)
    (hover : ∀ loop period deadline, c.batcher.task ≠ .active loop period deadline) :
    Kept { c with batcher := { c.batcher.flushAll.2 with stopped := true }, slipped := [] } := by
  have hno : ∀ s, sleep? { c with
      batcher := { c.batcher.flushAll.2 with stopped := true }, slipped := [] } ≠ some s :=
    fun s hs => hover _ _ _ (sleep?_eq_some.mp hs).2.1
  refine ⟨h.pool, fun s hs => absurd hs (hno s), fun f hf => ?_, fun s hs => absurd hs (hno s)⟩
  refine ⟨(h.gap f hf).period, fun _ p => iff_of_false ?_ List.not_mem_nil,
    fun _ hne => absurd rfl hne⟩
  exact fun hheld => hheld (buffered_clearAll c.batcher.panes p)

/-- **Every step keeps it.** -/
theorem step (h : Kept c) {st : Step} (hs : c.step st = some d) : Kept d := by
  cases st with
  | append p data =>
    simp only [Crew.step, Option.ite_none_left_eq_some] at hs
    obtain ⟨hdata, hs⟩ := hs
    split at hs
    · next hstopped =>
      cases hs
      unfold write
      rw [if_neg hdata, if_pos hstopped]
      exact h.aside fun s hs => hs
    · cases hs
      exact h.append p fun he => hdata (isEmpty_iff.mpr he)
  | test i =>
    obtain ⟨e, he, rfl⟩ := Option.map_eq_some_iff.mp hs
    exact h.test he
  | wake =>
    simp only [Crew.step, Option.ite_none_right_eq_some] at hs
    obtain ⟨s, hsleep, rfl⟩ := Option.map_eq_some_iff.mp hs.2
    exact rouse h.pool (sleep?_eq_some.mp hsleep).2.2 (h.base s hsleep)
  | tick =>
    obtain ⟨s, hsleep, rfl⟩ := Option.map_eq_some_iff.mp hs
    obtain ⟨hsleep, -⟩ := Option.filter_eq_some_iff.mp hsleep
    exact rouse h.pool (sleep?_eq_some.mp hsleep).2.2 (h.base s hsleep)
  | conclude =>
    obtain ⟨f, hf, rfl⟩ := Option.map_eq_some_iff.mp hs
    exact h.conclude hf
  | elapse ms =>
    cases hs
    exact h.aside fun s hs => hs
  | start =>
    cases hs
    exact h.start
  | supervise => exact h.supervised hs
  | retain live =>
    cases hs
    exact h.retain live
  | fire =>
    cases hs
    exact h.aside fun s hs => hs
  | halt =>
    cases hs
    exact h.aside fun s hs => hs
  | shut =>
    simp only [Crew.step] at hs
    split at hs
    · cases hs
    · next hover =>
      cases hs
      exact h.shut hover

/-- It holds at the start. -/
theorem of_fresh (policy : BatchPolicy) (restart : RestartPolicy) (fate : Nat → Option String) :
    Kept (of (fresh policy restart fate)) :=
  of_base (fun _ hd => absurd hd List.not_mem_nil) rfl fun s hs => by cases hs

end Kept

/-- **The policy stays.** -/
theorem step_policy {c d : Crew} {st : Step} (hs : c.step st = some d) :
    d.batcher.policy = c.batcher.policy := by
  have hround : ∀ (b : Batcher) (loop : Supervisor.State) (period : Nat),
      (b.round loop period).1.policy = b.policy := by
    intro b loop period
    rcases round_cases b loop period with hr | ⟨e, events, hr⟩ <;> rw [hr] <;> rfl
  cases st with
  | append p data =>
    simp only [step, Option.ite_none_left_eq_some] at hs
    obtain ⟨-, hs⟩ := hs
    split at hs
    · cases hs
      exact write_policy c.batcher p data
    · cases hs
      rfl
  | test i =>
    obtain ⟨e, -, rfl⟩ := Option.map_eq_some_iff.mp hs
    show (c.batcher.signal e.first e.crossed).policy = c.batcher.policy
    unfold signal
    split <;> rfl
  | wake =>
    simp only [step, Option.ite_none_right_eq_some] at hs
    obtain ⟨s, -, rfl⟩ := Option.map_eq_some_iff.mp hs.2
    exact hround _ _ _
  | tick =>
    obtain ⟨s, -, rfl⟩ := Option.map_eq_some_iff.mp hs
    exact hround _ _ _
  | conclude =>
    obtain ⟨f, -, rfl⟩ := Option.map_eq_some_iff.mp hs
    rfl
  | start =>
    cases hs
    exact apply_policy c.batcher .start
  | supervise =>
    simp only [step, supervised] at hs
    split at hs
    · cases hs
    · split at hs
      · split at hs
        · cases hs
          rfl
        · cases hs
      · obtain ⟨b', ht, rfl⟩ := Option.map_eq_some_iff.mp hs
        exact (turned_of_turn ht).policy_eq
  | retain live =>
    cases hs
    exact release_policy _ _
  | shut =>
    simp only [step] at hs
    split at hs
    · cases hs
    · cases hs
      rfl
  | _ => cases hs; rfl

/-- **Whose bytes a long sleep leaves waiting.** Whenever the loop sleeps for longer than the base
tick, no wake-up is stored and no writer is between its steps, the panes whose bytes wait are exactly
those that got them between the two halves of the last look. So nothing waits unless a write fell
there; and then the sleep is the first one of an idle time, of twice the tick at most. -/
theorem holds_iff_slipped {policy : BatchPolicy} {restart : RestartPolicy}
    {fate : Nat → Option String} {ss : List Step} {c : Crew} {s : Sleep}
    (hr : (of (fresh policy restart fate)).run ss = some c) (hs : c.sleep? = some s)
    (hlong : policy.interval < s.period) (hwake : c.batcher.wake = false)
    (hrest : c.errands = []) :
    (∀ p, c.batcher.holds p ↔ p ∈ c.slipped) ∧
      (c.slipped ≠ [] → s.period = min (policy.interval * 2) policy.idleInterval) := by
  obtain ⟨hkept, hpolicy⟩ : c.Kept ∧ c.batcher.policy = policy :=
    run_induct (P := fun c => c.Kept ∧ c.batcher.policy = policy)
      (fun c st d hc hst => ⟨hc.1.step hst, (step_policy hst).trans hc.2⟩)
      ⟨Kept.of_fresh policy restart fate, rfl⟩ hr
  have hquiet : ¬ c.Alarmed := by
    rintro (hw | ⟨e, he, -⟩)
    · simp [hwake] at hw
    · rw [hrest] at he
      exact absurd he List.not_mem_nil
  obtain ⟨-, hheld, hnoticed, hfirst⟩ := hkept.long s hs (by rwa [hpolicy])
  rw [hpolicy] at hfirst
  exact ⟨fun p => ⟨fun hp => (hnoticed p hp).resolve_right hquiet, hheld p⟩,
    fun hne => (hfirst hne).resolve_left hquiet⟩

/-- Two panes slip by and one of them is let go: the other one is left waiting. -/
theorem holds_iff_slipped_of_two :
    ∃ c s, (of (fresh default default)).run
        [.start, .supervise, .elapse 16, .tick, .append "%0" "late".toUTF8,
          .append "%1" "gone".toUTF8, .test 0, .test 0, .conclude, .retain (· != "%1")] = some c ∧
      c.sleep? = some s ∧ s.period = 32 ∧ ∀ p, c.batcher.holds p ↔ p = "%0" := by
  have hrun : ((of (fresh default default)).run
      [.start, .supervise, .elapse 16, .tick, .append "%0" "late".toUTF8,
        .append "%1" "gone".toUTF8, .test 0, .test 0, .conclude, .retain (· != "%1")]).map
          (fun c => (c.sleep?.map Sleep.period, c.batcher.wake, c.errands, c.slipped)) =
        some (some 32, false, [], ["%0"]) := by
    decide +kernel
  obtain ⟨c, hr, hc⟩ := Option.map_eq_some_iff.mp hrun
  simp only [Prod.mk.injEq] at hc
  obtain ⟨hs, hwake, hrest, hslipped⟩ := hc
  obtain ⟨s, hs, hperiod⟩ := Option.map_eq_some_iff.mp hs
  have hlong : (default : BatchPolicy).interval < s.period := by
    rw [hperiod]
    decide
  obtain ⟨hwho, -⟩ := holds_iff_slipped hr hs hlong hwake hrest
  exact ⟨c, s, hr, hs, hperiod, fun p => by rw [hwho, hslipped, List.mem_singleton]⟩

/-- **A write that nobody hears:** it comes between the round that finds nothing and the flag that says
so. The loop sleeps for two ticks, no wake-up is stored and no writer is on its way, and the bytes
wait. -/
theorem late_write_unheard :
    ∃ c s, (of (fresh default default)).run
        [.start, .supervise, .elapse 16, .tick, .append "%0" "late".toUTF8, .test 0,
          .conclude] = some c ∧
      c.sleep? = some s ∧ (default : BatchPolicy).interval < s.period ∧
      c.batcher.wake = false ∧ c.errands = [] ∧
      buffered c.batcher.panes "%0" = "late".toUTF8 ∧ c.batcher.holds "%0" := by
  have hrun : ((of (fresh default default)).run
      [.start, .supervise, .elapse 16, .tick, .append "%0" "late".toUTF8, .test 0,
        .conclude]).map (fun c => (c.sleep?.map Sleep.period, c.batcher.wake, c.errands,
          buffered c.batcher.panes "%0")) =
        some (some 32, false, [], "late".toUTF8) := by
    decide +kernel
  obtain ⟨c, hr, hc⟩ := Option.map_eq_some_iff.mp hrun
  simp only [Prod.mk.injEq] at hc
  obtain ⟨hs, hwake, hrest, hdata⟩ := hc
  obtain ⟨s, hs, hperiod⟩ := Option.map_eq_some_iff.mp hs
  refine ⟨c, s, hr, hs, ?_, hwake, hrest, hdata, ?_⟩
  · rw [hperiod]
    decide
  · unfold holds
    rw [hdata]
    decide +kernel

end PaneRelay.Batcher.Crew
