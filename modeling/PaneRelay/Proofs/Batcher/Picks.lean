import Mathlib.Data.List.Induction
import PaneRelay.Proofs.Batcher.Spacing

/-! # Whichever the task picks

At one moment several things may be there for the task to do: a wake-up is stored and the tick has
ended, or a token has fired and a pause is over. `turn` does one of them, always the same. A task
that picks freely may leave a wake-up stored when it looks, pass a token on before it looks and not
after, or look once more before it notices that it is to end. None of this changes what a batcher
promises.

* `Picked`: all that the task can do at a moment; `exists_picked_iff`: there is something to pick
  just if `turn` takes a step.
* `Picked.worked`: whatever it is, it is a chain of elementary changes.
* `Freely`: runs in which the task picks freely; `Freely.induct`: what elementary changes and writes
  keep, they keep; `freely_run`: the runs with the picks of `turn` are some of them.
* `freely_balanced`, `freely_sparing`: nothing is lost, and rounds spare.
* `Leisurely`: such runs of a loop that goes on, at rest whenever time passes; `Kept.leisurely`:
  with the picks of `turn` they are the runs of moves at their time.
* `leisurely_waiting_lt`: nothing is late in them. -/

namespace PaneRelay.Batcher

/-! ### What can be picked -/

/-- A look in an attempt that is going to end, since the token has fired. A failure of the sink is
not reported any more. -/
def lastLook (b : Batcher) (loop : Supervisor.State) (period : Nat) : Batcher :=
  match b.round loop period with
  | (b, some found) => b.conclude found
  | (_, none) => { b.flushDue.2 with task := .active loop.cancel period b.now }

/-- **What the task can do at a moment.** -/
inductive Picked (b : Batcher) : Batcher → Prop where
  /-- The step of `turn`. -/
  | turned {b' : Batcher} (step : b.turn = some b') : Picked b b'
  /-- The token that was given to the loop is passed on, whatever else there is to do. -/
  | linked {loop : Supervisor.State} {period deadline : Nat}
      (task : b.task = .active loop period deadline) (cancelled : b.cancelled = false)
      (shutdown : b.shutdown = true) : Picked b { b with cancelled := true }
  /-- The tick has ended, and a wake-up stays stored if there is one. -/
  | ticked {loop : Supervisor.State} {period deadline since : Nat}
      (task : b.task = .active loop period deadline) (phase : loop.phase = .running since)
      (cancelled : b.cancelled = false) (due : deadline ≤ b.now) : Picked b (b.look loop period)
  /-- A pause has ended, and the token is looked at later. -/
  | resumed {loop : Supervisor.State} {period deadline ends : Nat}
      (task : b.task = .active loop period deadline) (phase : loop.phase = .pausing ends)
      (due : ends ≤ b.now) :
      Picked b { b with task := .active (loop.resume b.restart) period deadline }
  /-- A wake-up is taken, and the token is looked at later. -/
  | wokenLast {loop : Supervisor.State} {period deadline since : Nat}
      (task : b.task = .active loop period deadline) (phase : loop.phase = .running since)
      (cancelled : b.cancelled = true) (wake : b.wake = true) :
      Picked b ({ b with wake := false }.lastLook loop period)
  /-- The tick has ended, and the token is looked at later. -/
  | tickedLast {loop : Supervisor.State} {period deadline since : Nat}
      (task : b.task = .active loop period deadline) (phase : loop.phase = .running since)
      (cancelled : b.cancelled = true) (due : deadline ≤ b.now) :
      Picked b (b.lastLook loop period)

/-- **There is something to pick** just if `turn` takes a step, so a task that has come to rest in
one order of things has in any other. -/
theorem exists_picked_iff {b : Batcher} : (∃ b', Picked b b') ↔ b.turn.isSome = true := by
  constructor
  · rintro ⟨b', hp⟩
    cases hp with
    | turned step => rw [step]; rfl
    | @linked loop period deadline task cancelled shutdown =>
      cases hphase : loop.phase with
      | done o => simp [turn, task, hphase, cancelled, shutdown]
      | ready => simp [turn, task, hphase, cancelled]
      | running since =>
        simp only [turn, task, hphase, cancelled, shutdown, Bool.false_eq_true, if_false, if_true]
        split
        · rfl
        · split <;> rfl
      | pausing ends =>
        simp only [turn, task, hphase, cancelled, shutdown, Bool.false_eq_true, if_false, if_true]
        split <;> rfl
    | ticked task phase cancelled due =>
      simp only [turn, task, phase, cancelled, due, Bool.false_eq_true, if_false, if_true]
      split <;> rfl
    | resumed task phase due => cases hc : b.cancelled <;> simp [turn, task, phase, hc, due]
    | wokenLast task phase cancelled => simp [turn, task, phase, cancelled]
    | tickedLast task phase cancelled => simp [turn, task, phase, cancelled]
  · intro h
    obtain ⟨b', hb⟩ := Option.isSome_iff_exists.mp h
    exact ⟨b', .turned hb⟩

/-! ### Elementary changes -/

theorem work_lastLook (b : Batcher) (loop : Supervisor.State) (period : Nat) :
    Work b.flushDue.2 (b.lastLook loop period) := by
  unfold lastLook
  rcases round_cases b loop period with hr | ⟨e, events, hr⟩
  · rw [hr]
    exact .aside (Nat.le_refl _)
  · rw [hr]
    exact .aside (Nat.le_refl _)

/-- **Whatever is picked** is a chain of elementary changes. -/
theorem Picked.worked {b b' : Batcher} (h : Picked b b') : Worked b b' := by
  cases h with
  | turned step => exact (turned_of_turn step).worked
  | linked => exact .single (.aside (Nat.le_refl _))
  | ticked => exact (Worked.single (.drain .round)).tail (work_look _ _ _)
  | resumed => exact .single (.aside (Nat.le_refl _))
  | wokenLast =>
    have hround : Work b (flushDue { b with wake := false }).2 := .heed
    exact (Worked.single hround).tail (work_lastLook _ _ _)
  | tickedLast => exact (Worked.single (.drain .round)).tail (work_lastLook _ _ _)

/-! ### Runs in which the task picks freely -/

/-- **A run in which the task picks freely**, with what is written in it. -/
inductive Freely (b : Batcher) : List Chunk → Batcher → Prop where
  /-- Nothing happens. -/
  | nil : Freely b [] b
  /-- A move. -/
  | move {w : List Chunk} {c : Batcher} (before : Freely b w c) (m : Move) :
      Freely b (w ++ m.output) (c.move m)
  /-- The task picks something. -/
  | pick {w : List Chunk} {c d : Batcher} (before : Freely b w c) (picked : Picked c d) :
      Freely b w d

/-- A run is one of these. -/
theorem freely_run (b : Batcher) (ms : List Move) :
    Freely b (ms.flatMap Move.output) (b.run ms) := by
  induction ms using List.reverseRecOn with
  | nil => exact .nil
  | append_singleton ms m ih =>
    rw [run_append, List.flatMap_append]
    simpa using ih.move m

/-- **What elementary changes and writes keep**, every run keeps, whatever the task picks. -/
theorem Freely.induct {P : Batcher → Prop} (work : ∀ {b b'}, Work b b' → P b → P b')
    (write : ∀ {b} p d, P b → P (b.write p d).2) {b c : Batcher} {w : List Chunk} (h : P b)
    (hf : Freely b w c) : P c := by
  induction hf with
  | nil => exact h
  | move _ m ih => exact move_induct work write ih m
  | pick _ hp ih => exact hp.worked.induct work ih

variable {policy : BatchPolicy} {restart : RestartPolicy} {b c : Batcher} {w : List Chunk}

theorem Balanced.drained (h : Balanced b w) (d : Drain) : Balanced (b.drain d).2 w := by
  cases d with
  | round => exact h.flushDue
  | last => exact h.flushAll
  | retain live => exact h.retain live
  | remove p => exact h.remove p

theorem Work.balanced (hw : Work b c) (h : Balanced b w) : Balanced c w := by
  cases hw with
  | aside => exact h.of_eq rfl rfl rfl rfl
  | drain d => exact h.drained d
  | heed => exact (h.drained .round).of_eq rfl rfl rfl rfl
  | shut =>
    have hlast := h.drained .last
    exact ⟨hlast.reliable, hlast.bytes, hlast.solid, hlast.pool,
      fun _ => buffered_clearAll b.panes⟩

/-- **Nothing is lost, and nothing changes its place**, whatever the task picks. -/
theorem freely_balanced (hf : Freely (fresh policy restart) w b) :
    (∀ p, bytesOf p b.sink.chunks ++ buffered b.panes p = bytesOf p w) ∧
      ∀ c ∈ b.sink.chunks, c.data ≠ ByteArray.empty := by
  have hb : Balanced b w := by
    induction hf with
    | nil => exact .fresh policy restart
    | move _ m ih => exact ih.move m
    | pick _ hp ih => exact hp.worked.induct Work.balanced ih
  exact ⟨hb.bytes, hb.solid⟩

/-- **Rounds spare**, whatever the task picks. -/
theorem freely_sparing {fate : Nat → Option String} (hf : Freely (fresh policy restart fate) w b) :
    b.policy = policy ∧ Sparing b := by
  obtain ⟨-, hpolicy, hdated⟩ := hf.induct
    (P := fun b => Tidy b ∧ b.policy = policy ∧ Dated b)
    (fun hw ⟨ht, hp, hd⟩ => ⟨hw.tidy ht, hw.policy_eq.trans hp, hw.dated hd⟩)
    (fun p d ⟨ht, hp, hd⟩ =>
      ⟨(Wrote.write ht p d).tidy, (write_policy _ p d).trans hp, hd.write ht p d⟩)
    ⟨tidy_fresh policy restart fate, rfl, dated_fresh policy restart fate⟩
  exact ⟨hpolicy, hdated.sparing⟩

/-! ### Nothing is late -/

/-- **A run of a loop that goes on**, in which the task picks freely and no time passes before it
has come to rest. -/
inductive Leisurely (b : Batcher) : Batcher → Prop where
  /-- Nothing happens. -/
  | nil : Leisurely b b
  /-- A move; a tick of the clock finds the task at rest. -/
  | move {c : Batcher} (before : Leisurely b c) (m : Move) (goesOn : m.goesOn = true)
      (rest : ∀ ms, m = .tick ms → c.turn = none) : Leisurely b (c.move m)
  /-- The task picks something. -/
  | pick {c d : Batcher} (before : Leisurely b c) (picked : Picked c d) : Leisurely b d

/-- **A loop that was begun at `s`:** just now, or it is at work. -/
inductive AtWork (s : Nat) (b : Batcher) : Prop where
  | parked {loop : Supervisor.State} (parked : Parked s b (.active loop 0 0))
      (phase : loop.phase = .ready)
  | running {loop : Supervisor.State} {period deadline : Nat}
      (running : Running s b loop period deadline)

theorem Resting.atWork {s : Nat} (h : Resting s b) : AtWork s b := by
  obtain ⟨loop, period, deadline, hr, -⟩ := h
  exact .running hr

theorem Kept.atWork {s : Nat} (h : Kept s b) : AtWork s b := by
  cases h with
  | parked h hphase => exact .parked h hphase
  | running h _ => exact .running h

/-- A look leaves the stored wake-up alone. -/
theorem look_wake (b : Batcher) (wake : Bool) (loop : Supervisor.State) (period : Nat) :
    { b with wake }.look loop period = { b.look loop period with wake } := by
  have hflush : flushDue { b with wake } = (b.flushDue.1, { b.flushDue.2 with wake }) := rfl
  have hcount : roundCount { b with wake } = b.roundCount := rfl
  unfold look
  rw [hflush, hcount]
  generalize b.flushDue = r
  obtain ⟨e, b'⟩ := r
  cases e <;> rfl

/-- **A look that leaves a wake-up stored** leaves a loop at work, which is to look again. -/
theorem Running.look {s : Nat} {loop : Supervisor.State} {period deadline : Nat}
    (h : Running s b loop period deadline) : AtWork s (b.look loop period) := by
  have hcalm : Resting s ({ b with wake := false }.look loop period) :=
    (h.sound.aside b.now b.idle false b.task).look h.began h.phase h.period_pos rfl
  cases hwake : b.wake with
  | false =>
    have he : ({ b with wake := false } : Batcher) = b := by rw [← hwake]
    rw [he] at hcalm
    exact hcalm.atWork
  | true =>
    obtain ⟨loop', period', deadline', hr, -⟩ := hcalm
    rw [look_wake] at hr
    have hstored : (b.look loop period).wake = true := by
      have hkeep := congrArg Batcher.wake (look_wake b true loop period)
      have hsame : ({ b with wake := true } : Batcher) = b := by rw [← hwake]
      rwa [hsame] at hkeep
    have hwoken : Running s (b.look loop period) loop' period' deadline' :=
      ⟨hr.sound.aside _ _ (b.look loop period).wake _, hr.began, hr.task, hr.phase, hr.period_pos,
        .inl hstored⟩
    exact .running hwoken

namespace AtWork

variable {s : Nat}

theorem sound (h : AtWork s b) : b.Sound := by
  cases h with
  | parked h _ => exact h.sound
  | running h => exact h.sound

/-- A loop past its beginning runs. -/
theorem running_of {loop : Supervisor.State} {period deadline : Nat} (h : AtWork s b)
    (htask : b.task = .active loop period deadline) (hphase : loop.phase ≠ .ready) :
    Running s b loop period deadline := by
  cases h with
  | parked h hready =>
    obtain ⟨rfl, -, -⟩ := Task.active.inj (h.task.symm.trans htask)
    exact absurd hready hphase
  | running h =>
    obtain ⟨rfl, rfl, rfl⟩ := Task.active.inj (h.task.symm.trans htask)
    exact h

/-- A loop that has nothing to do is at rest. -/
theorem resting (h : AtWork s b) (hrest : b.turn = none) : Resting s b := by
  cases h with
  | parked h hphase =>
    obtain ⟨b', -, -, -, ht, -⟩ := h.turn hphase
    rw [hrest] at ht
    cases ht
  | running h =>
    rcases h.turn with hr | ⟨b', ht, -⟩
    · exact hr
    · rw [hrest] at ht
      cases ht

theorem turned (h : AtWork s b) (ht : b.turn = some c) : AtWork s c := by
  cases h with
  | parked h hphase =>
    obtain ⟨b', loop, period, deadline, hb, hr, -⟩ := h.turn hphase
    obtain rfl := Option.some.inj (hb.symm.trans ht)
    exact .running hr
  | running h =>
    rcases h.turn with hr | ⟨b', hb, hr⟩
    · rw [hr.turn] at ht
      cases ht
    · obtain rfl := Option.some.inj (hb.symm.trans ht)
      exact hr.atWork

/-- **Whatever the task picks**, the loop stays at work. -/
theorem picked (h : AtWork s b) (hp : Picked b c) : AtWork s c := by
  have hsound := h.sound
  cases hp with
  | turned step => exact h.turned step
  | ticked task phase =>
    have hr := h.running_of task (by rw [phase]; nofun)
    exact hr.look
  | resumed task phase =>
    have hr := h.running_of task (by rw [phase]; nofun)
    obtain ⟨since, hphase⟩ := hr.phase
    rw [hphase] at phase
    cases phase
  -- nobody has told this loop to end
  | linked task cancelled shutdown =>
    exact absurd (hsound.shutdown.symm.trans shutdown) (by decide)
  | wokenLast task phase cancelled =>
    exact absurd (hsound.cancelled.symm.trans cancelled) (by decide)
  | tickedLast task phase cancelled =>
    exact absurd (hsound.cancelled.symm.trans cancelled) (by decide)

theorem write (h : AtWork s b) (p : PaneId) (d : ByteArray) : AtWork s (b.write p d).2 := by
  cases h with
  | parked h hphase => exact .parked (h.write p d) hphase
  | running h => exact .running (h.write p d)

theorem retain (h : AtWork s b) (live : PaneId → Bool) : AtWork s (b.retain live).2.2 := by
  cases h with
  | parked h hphase => exact .parked (h.retain live) hphase
  | running h => exact .running (h.retain live)

theorem start (h : AtWork s b) : b.start = b := by
  cases h with
  | parked h _ => unfold Batcher.start; rw [h.task]
  | running h => exact h.start

theorem move (h : AtWork s b) {m : Move} (hm : m.goesOn = true)
    (hrest : ∀ ms, m = .tick ms → b.turn = none) : AtWork s (b.move m) := by
  cases m with
  | turn =>
    show AtWork s (b.turn.getD b)
    cases ht : b.turn with
    | none => exact h
    | some b' => exact h.turned ht
  | tick ms =>
    obtain ⟨loop, period, deadline, hr, -⟩ := h.resting (hrest ms rfl)
    exact .running (hr.tick (Nat.le_add_right _ _))
  | halt => cases hm
  | op o =>
    cases o with
    | start =>
      show AtWork s b.start
      rwa [h.start]
    | write p d => exact h.write p d
    | writes items => exact writeAll_induct (fun _ p d h => h.write p d) h items
    | remove p =>
      show AtWork s (b.remove p).2
      rw [remove_eq_retain]
      exact h.retain _
    | retain live => exact h.retain _
    | sleep ms => cases hm
    | cancel => cases hm
    | stop => cases hm

end AtWork

/-! ### The fixed order is a case -/

namespace Leisurely

theorem trans {a b c : Batcher} (h : Leisurely a b) (h' : Leisurely b c) : Leisurely a c := by
  induction h' with
  | nil => exact h
  | move _ m hm hrest ih => exact ih.move m hm hrest
  | pick _ hp ih => exact ih.pick hp

theorem turns (n : Nat) (b : Batcher) : Leisurely b (b.turns n) := by
  induction n generalizing b with
  | zero => exact .nil
  | succ n ih =>
    unfold Batcher.turns
    cases ht : b.turn with
    | none => exact .nil
    | some b' => exact (pick .nil (.turned ht)).trans (ih b')

/-- At rest the clock may go on. -/
theorem tick (h : b.turn = none) (t : Nat) (ht : b.now ≤ t) : Leisurely b { b with now := t } := by
  have hmove := (nil (b := b)).move (.tick (t - b.now)) rfl fun _ _ => h
  rwa [move_tick ht] at hmove

end Leisurely

/-- The next millisecond. -/
theorem Resting.leisurely_one {s : Nat} (h : Resting s b) : Leisurely b (b.advance 1) := by
  obtain ⟨deadline, htimer, hlt, hnext, -⟩ := h.nextTimer
  unfold Batcher.advance
  rw [advanceTo_succ htimer hlt]
  split
  · next hdue =>
    -- it is the deadline, and the next one lies behind it
    have hnow : (Batcher.settle { b with now := deadline }).now = deadline := turns_now 16 _
    obtain ⟨later, htimer', hlt', -⟩ := hnext.nextTimer
    rw [advanceTo_succ htimer' hlt', if_neg (by omega)]
    have hlook := (Leisurely.tick h.turn deadline (Nat.le_of_lt hlt)).trans (.turns 16 _)
    exact hlook.trans (.tick hnext.turn _ (by omega))
  · exact .tick h.turn _ (by omega)

theorem Resting.leisurely_advance {s : Nat} (h : Resting s b) (ms : Nat) :
    Leisurely b (b.advance ms) := by
  induction ms with
  | zero =>
    obtain ⟨deadline, htimer, hlt, -⟩ := h.nextTimer
    unfold Batcher.advance
    rw [advanceTo_succ htimer hlt, if_neg (by omega)]
    exact .nil
  | succ ms ih =>
    rw [h.advance_add ms 1]
    exact ih.trans (h.advance ms).leisurely_one

/-- **Moves at their time** are such a run, with the picks of `turn`. -/
theorem Kept.leisurely {s : Nat} (h : Kept s b) {ms : List Move}
    (hms : ∀ m ∈ ms, m.goesOn = true) : Leisurely b (b.paced ms) := by
  induction ms generalizing b with
  | nil => exact .nil
  | cons m ms ih =>
    have hm : m.goesOn = true := hms m List.mem_cons_self
    refine Leisurely.trans ?_ (ih (h.pace hm) fun m' hm' => hms m' (List.mem_cons_of_mem _ hm'))
    cases m with
    | tick ms => exact (Leisurely.turns 16 b).trans (h.settle.leisurely_advance ms)
    | turn => exact Leisurely.nil.move .turn rfl nofun
    | op o => exact Leisurely.nil.move (.op o) hm nofun
    | halt => cases hm

/-! ### The bounds -/

theorem Leisurely.policy_eq (h : Leisurely b c) : c.policy = b.policy := by
  induction h with
  | nil => rfl
  | move _ m _ _ ih => exact (move_policy _ m).trans ih
  | pick _ hp ih =>
    refine hp.worked.induct (P := fun d => d.policy = b.policy) (fun hw he => ?_) ih
    exact hw.policy_eq.trans he

theorem AtWork.leisurely {s : Nat} (hb : AtWork s b) (h : Leisurely b c) : AtWork s c := by
  induction h with
  | nil => exact hb
  | move _ m hm hrest ih => exact ih.move hm hrest
  | pick _ hp ih => exact ih.picked hp

/-- **Bounded latency, whatever the task picks.** Whenever a loop that goes on has come to rest, no
buffer that waits is late, neither by its last write nor by its first byte. -/
theorem leisurely_waiting_lt (sec : Config.BatchSection) (restart : RestartPolicy)
    (before : List Move) (hbefore : ∀ m ∈ before, m.goesOn = true) {b : Batcher} :
    let policy := BatchPolicy.ofSection sec
    let ready := (fresh policy restart).paced before
    Leisurely ready.start b → b.turn = none → ∀ p buffer, b.Waits p buffer →
      b.now < max buffer.lastWrite ready.now + 2 * policy.interval ∧
        b.now < max buffer.pendingSince ready.now + policy.maxAge + policy.interval := by
  intro policy ready hb hrest p buffer hw
  obtain ⟨s, hs, hkept⟩ := ((fit_fresh sec restart).paced hbefore).start
  have hpolicy : b.policy = policy :=
    hb.policy_eq.trans ((apply_policy ready .start).trans (paced_policy _ _))
  have hwithin := ((hkept.atWork.leisurely hb).resting hrest).kept.within.mono hs
  rw [← hpolicy]
  exact ⟨hwithin.quiet p buffer hw, hwithin.young p buffer hw⟩

end PaneRelay.Batcher
