import PaneRelay.Proofs.Batcher.Run

/-! # How long output waits

Between operations the loop sleeps towards a deadline. Either nothing waits, and the tick may have
grown; or the tick is the base interval, and at the last look no buffer that still waits was due.
So the deadline is not far from the last write to any buffer that waits, nor from its first byte:
that is `Timely`. A write that would break this stores a wake-up (`Running.write`), and a look makes
it true again, whatever was there before (`Running.look`).

* `Running`, `Resting`: the loop at work, and the loop that has nothing to do at this moment.
* `Running.settle`: the loop comes to rest.
* `Resting.advance`, `Resting.advance_add`: the passing of time, in one piece or in several.
* `Parked`, `Kept`: the loop before its first look, and from its start on.
* `waiting_lt`: the bounds at any moment. -/

namespace PaneRelay.Batcher

/-- Whether bytes wait in a pane's buffer. -/
def Waits (b : Batcher) (p : PaneId) (buffer : Buffer) : Prop :=
  b.panes.find? p = some buffer ∧ buffer.isIdle = false

/-- A batcher that nobody stopped, with a sink that never fails and ticks of some length. -/
structure Sound (b : Batcher) : Prop where
  reliable : b.sink.Reliable
  pool : ∀ d ∈ b.pool, d = ByteArray.empty
  shutdown : b.shutdown = false
  cancelled : b.cancelled = false
  stopped : b.stopped = false
  interval_pos : 0 < b.policy.interval
  idle_pos : 0 < b.policy.idleInterval

/-- The clock, the loop and its flags do not count. -/
theorem Sound.aside {b : Batcher} (h : b.Sound) (now : Nat) (idle wake : Bool) (task : Task) :
    Sound { b with now, idle, wake, task } :=
  ⟨h.reliable, h.pool, h.shutdown, h.cancelled, h.stopped, h.interval_pos, h.idle_pos⟩

/-- **A moment is in time** for every buffer that waits, with a loop that began at `s`. -/
structure Within (s t : Nat) (b : Batcher) : Prop where
  quiet : ∀ p buffer, b.Waits p buffer → t ≤ max buffer.lastWrite s + 2 * b.policy.interval
  young : ∀ p buffer, b.Waits p buffer →
    t ≤ max buffer.pendingSince s + b.policy.maxAge + b.policy.interval

/-- **The deadline is in time**, and will be for output that comes now. -/
structure Timely (s deadline : Nat) (b : Batcher) : Prop where
  /-- An idle loop has nothing to flush. -/
  calm : b.idle = true → ∀ p buffer, ¬ b.Waits p buffer
  /-- A loop that is not idle keeps the base interval. -/
  busy : b.idle = false → deadline ≤ b.now + b.policy.interval
  within : Within s deadline b

/-- **The loop at work**, with its tick and deadline: it was woken, or the deadline is in time. -/
structure Running (s : Nat) (b : Batcher) (loop : Supervisor.State) (period deadline : Nat) :
    Prop where
  sound : b.Sound
  began : s ≤ b.now
  task : b.task = .active loop period deadline
  phase : ∃ since, loop.phase = .running since
  period_pos : 0 < period
  heeded : b.wake = true ∨ b.Timely s deadline

/-- **The loop at rest:** it waits for its deadline. -/
def Resting (s : Nat) (b : Batcher) : Prop :=
  ∃ loop period deadline, Running s b loop period deadline ∧ b.wake = false ∧ b.now < deadline

/-! ### A look -/

theorem waits_clearWhere {b : Batcher} {ready : Buffer → Bool} {p : PaneId} {buffer : Buffer}
    (h : Waits { b with panes := clearWhere ready b.panes } p buffer) :
    b.Waits p buffer ∧ ready buffer = false := by
  obtain ⟨hf, hi⟩ := h
  simp only [find?_clearWhere] at hf
  obtain ⟨old, hold, he⟩ := Option.map_eq_some_iff.mp hf
  split at he
  · next hr =>
    subst he
    cases hi
  · next hr =>
    subst he
    refine ⟨⟨hold, hi⟩, ?_⟩
    simpa [hi] using hr

theorem anyPending_of_find? {panes : PaneMap Buffer} {p : PaneId} {buffer : Buffer}
    (hf : panes.find? p = some buffer) (hi : buffer.isIdle = false) : anyPending panes = true := by
  obtain ⟨l, r, hl, -⟩ := List.lookup_eq_some_iff.mp hf
  refine List.any_eq_true.mpr ⟨(p, buffer), by rw [hl]; simp, by simp [hi]⟩

/-- What a look does when the sink takes all chunks. -/
theorem look_eq {b : Batcher} (h : b.sink.Reliable) (loop : Supervisor.State) (period : Nat) :
    b.look loop period = { b.flushDue.2 with
      idle := b.roundCount.1 = 0 && !b.roundCount.2
      task := .active loop (nextPeriod b.policy period b.roundCount.1 b.roundCount.2)
        (b.now + nextPeriod b.policy period b.roundCount.1 b.roundCount.2) } := by
  unfold look
  rw [flushDue_eq h]

/-- What a flush round leaves waiting was not due, and is seen to wait. -/
theorem waits_round {b : Batcher} {p : PaneId} {buffer : Buffer}
    (h : Waits { b with panes := clearWhere (Buffer.isDue b.policy b.now) b.panes } p buffer) :
    b.now < buffer.lastWrite + b.policy.interval ∧ b.now < buffer.pendingSince + b.policy.maxAge ∧
      b.roundCount.2 = true := by
  obtain ⟨-, hdue⟩ := waits_clearWhere h
  simp only [Buffer.isDue, Bool.or_eq_false_iff, decide_eq_false_iff_not] at hdue
  obtain ⟨⟨-, h1⟩, h2⟩ := hdue
  refine ⟨by omega, by omega, ?_⟩
  rw [roundCount_eq]
  exact anyPending_of_find? h.1 h.2

theorem Sound.nextPeriod_pos {b : Batcher} (h : b.Sound) {period : Nat} (hperiod : 0 < period)
    (flushed : Nat) (pending : Bool) : 0 < nextPeriod b.policy period flushed pending := by
  have h1 := h.interval_pos
  have h2 := h.idle_pos
  unfold nextPeriod
  split <;> omega

/-- **After a look the loop is at rest**, whatever it found. -/
theorem Sound.look {b : Batcher} (h : b.Sound) {s period : Nat} {loop : Supervisor.State}
    (hs : s ≤ b.now) (hphase : ∃ since, loop.phase = .running since) (hperiod : 0 < period)
    (hwake : b.wake = false) : Resting s (b.look loop period) := by
  have hpos := h.nextPeriod_pos hperiod b.roundCount.1 b.roundCount.2
  -- the loop keeps the base interval as long as it is not idle
  have hbase : (decide (b.roundCount.1 = 0) && !b.roundCount.2) = false →
      nextPeriod b.policy period b.roundCount.1 b.roundCount.2 = b.policy.interval := fun hi =>
    if_neg (by rw [hi]; decide)
  have hnot : b.roundCount.2 = true → (decide (b.roundCount.1 = 0) && !b.roundCount.2) = false :=
    fun hp => by rw [hp, Bool.not_true, Bool.and_false]
  rw [look_eq h.reliable, flushDue_eq h.reliable]
  refine ⟨loop, _, _, ⟨⟨h.reliable.took _ _, h.pool, h.shutdown, h.cancelled, h.stopped,
    h.interval_pos, h.idle_pos⟩, hs, rfl, hphase, hpos, Or.inr ?_⟩, hwake, by simp only; omega⟩
  refine ⟨fun hi p buffer hw => ?_, fun hi => ?_, fun p buffer hw => ?_, fun p buffer hw => ?_⟩
  · obtain ⟨-, -, hp⟩ := waits_round hw
    exact absurd ((hnot hp).symm.trans hi) (by decide)
  · have he := hbase hi
    simp only
    omega
  · obtain ⟨h1, -, hp⟩ := waits_round hw
    have he := hbase (hnot hp)
    simp only
    omega
  · obtain ⟨-, h2, hp⟩ := waits_round hw
    have he := hbase (hnot hp)
    simp only
    omega

/-! ### Coming to rest -/

theorem Resting.turn {s : Nat} {b : Batcher} (h : Resting s b) : b.turn = none := by
  obtain ⟨loop, period, deadline, hr, hwake, hlt⟩ := h
  obtain ⟨since, hphase⟩ := hr.phase
  unfold Batcher.turn
  simp only [hr.task, hphase, hr.sound.cancelled, hr.sound.shutdown, hwake, Bool.false_eq_true,
    if_false, Nat.not_le.mpr hlt]

theorem Resting.settle {s : Nat} {b : Batcher} (h : Resting s b) : b.settle = b :=
  turns_of_none h.turn 16

/-- A loop at work looks if it was woken or its tick has ended. -/
theorem Running.turn {s : Nat} {b : Batcher} {loop : Supervisor.State} {period deadline : Nat}
    (h : Running s b loop period deadline) : Resting s b ∨ ∃ b', b.turn = some b' ∧ Resting s b' := by
  obtain ⟨since, hphase⟩ := h.phase
  by_cases hwake : b.wake = true
  · right
    have hs : Sound { b with wake := false } := h.sound.aside b.now b.idle false b.task
    refine ⟨_, ?_, hs.look h.began h.phase h.period_pos rfl⟩
    unfold Batcher.turn
    simp only [h.task, hphase, h.sound.cancelled, hwake, Bool.false_eq_true, if_false, if_true]
  have hwake : b.wake = false := by simpa using hwake
  by_cases hd : deadline ≤ b.now
  · right
    refine ⟨_, ?_, h.sound.look h.began h.phase h.period_pos hwake⟩
    unfold Batcher.turn
    simp only [h.task, hphase, h.sound.cancelled, hwake, hd, Bool.false_eq_true, if_false, if_true]
  · left
    exact ⟨loop, period, deadline, h, hwake, by omega⟩

/-- **The loop comes to rest** within a step. -/
theorem Running.turns {s : Nat} {b : Batcher} {loop : Supervisor.State} {period deadline : Nat}
    (h : Running s b loop period deadline) (n : Nat) : Resting s (turns (n + 1) b) := by
  rcases h.turn with h' | ⟨b', ht, h'⟩
  · rw [turns_of_none h'.turn]
    exact h'
  · rw [turns_of_some ht, turns_of_none h'.turn]
    exact h'

theorem Running.settle {s : Nat} {b : Batcher} {loop : Supervisor.State} {period deadline : Nat}
    (h : Running s b loop period deadline) : Resting s b.settle := h.turns 15

/-! ### Writing -/

/-- Output joins the end of its pane's buffer, and may leave a wake-up. -/
theorem Sound.write_eq {b : Batcher} (h : b.Sound) (p : PaneId) (d : ByteArray) :
    (b.write p d).2 = b ∨ ∃ pool crossed, (∀ e ∈ pool, e = ByteArray.empty) ∧ (b.write p d).2 =
      { b with panes := b.panes.insert p ((b.bufferOf p).add d b.now), pool
               wake := (crossed || ((b.bufferOf p).isIdle && b.idle)) || b.wake } := by
  obtain ⟨pool, crossed, hpool, ha⟩ := append_eq h.pool p d
  unfold Batcher.write
  cases d.isEmpty with
  | true => exact .inl rfl
  | false =>
    refine .inr ⟨pool, crossed, hpool, ?_⟩
    rw [if_neg (by decide), if_neg (by simp [h.stopped]), ha]
    simp only [signal]
    cases crossed || ((b.bufferOf p).isIdle && b.idle) <;> rfl

theorem Sound.write {b : Batcher} (h : b.Sound) (p : PaneId) (d : ByteArray) :
    Sound (b.write p d).2 := by
  rcases h.write_eq p d with he | ⟨pool, crossed, hpool, he⟩
  · rw [he]; exact h
  · rw [he]
    exact ⟨h.reliable, hpool, h.shutdown, h.cancelled, h.stopped, h.interval_pos, h.idle_pos⟩

theorem Sound.write_now {b : Batcher} (h : b.Sound) (p : PaneId) (d : ByteArray) :
    (b.write p d).2.now = b.now := by
  rcases h.write_eq p d with he | ⟨pool, crossed, -, he⟩ <;> rw [he]

/-- A buffer that waits after a write was written to just now, or waited before. -/
theorem waits_insert {b : Batcher} {p q : PaneId} {d : ByteArray} {pool : List ByteArray}
    {wake : Bool} {buffer : Buffer}
    (h : Waits { b with panes := b.panes.insert p ((b.bufferOf p).add d b.now), pool, wake }
      q buffer) :
    b.Waits q buffer ∨ buffer.lastWrite = b.now ∧ (buffer.pendingSince = b.now ∨
      ∃ old, b.Waits q old ∧ buffer.pendingSince = old.pendingSince) := by
  obtain ⟨hf, hi⟩ := h
  simp only [PaneMap.find?_insert] at hf
  by_cases hq : q = p
  · subst hq
    rw [if_pos rfl] at hf
    cases hf
    right
    refine ⟨rfl, ?_⟩
    cases hb : (b.bufferOf q).isIdle with
    | true => simp [Buffer.add, hb]
    | false =>
      right
      unfold bufferOf at hb ⊢
      cases hold : b.panes.find? q with
      | none => rw [hold] at hb; cases hb
      | some old =>
        rw [hold] at hb
        exact ⟨old, ⟨hold, hb⟩, by simp [Buffer.add, show old.isIdle = false from hb]⟩
  · rw [if_neg hq] at hf
    exact .inl ⟨hf, hi⟩

/-- A write that an idle loop is not woken by has found bytes that wait. -/
theorem waits_of_bufferOf {b : Batcher} {p : PaneId} (h : (b.bufferOf p).isIdle = false) :
    b.Waits p (b.bufferOf p) := by
  unfold bufferOf at h ⊢
  cases hf : b.panes.find? p with
  | none => rw [hf] at h; cases h
  | some old => rw [hf] at h; exact ⟨hf, h⟩

theorem waits_keep {b : Batcher} {live : PaneId → Bool} {p : PaneId} {buffer : Buffer}
    {pool : List ByteArray} {sink : Sink}
    (h : Waits { b with panes := b.panes.keep live, pool, sink } p buffer) : b.Waits p buffer := by
  obtain ⟨hf, hi⟩ := h
  simp only [PaneMap.find?_keep] at hf
  split at hf
  · exact ⟨hf, hi⟩
  · cases hf

theorem Sound.retain {b : Batcher} (h : b.Sound) (live : PaneId → Bool) :
    Sound (b.retain live).2.2 := by
  rw [retain_eq h.reliable]
  exact ⟨h.reliable.took _ _, recycled_empty _ _ h.pool, h.shutdown, h.cancelled, h.stopped,
    h.interval_pos, h.idle_pos⟩

theorem Within.mono {s s' t : Nat} {b : Batcher} (h : Within s t b) (hs : s ≤ s') :
    Within s' t b where
  quiet p buffer hw := by have := h.quiet p buffer hw; omega
  young p buffer hw := by have := h.young p buffer hw; omega

theorem Within.write {s t : Nat} {b : Batcher} (h : Within s t b) (hb : b.Sound)
    (ht : t ≤ b.now + b.policy.interval) (p : PaneId) (d : ByteArray) :
    Within s t (b.write p d).2 := by
  rcases hb.write_eq p d with he | ⟨pool, crossed, -, he⟩
  · rw [he]; exact h
  rw [he]
  refine ⟨fun q buffer hw => ?_, fun q buffer hw => ?_⟩
  · rcases waits_insert hw with hw | ⟨hl, -⟩
    · exact h.quiet q buffer hw
    · simp only [hl]
      omega
  · rcases waits_insert hw with hw | ⟨-, hp | ⟨old, hw, hp⟩⟩
    · exact h.young q buffer hw
    · simp only [hp]
      omega
    · simp only [hp]
      exact h.young q old hw

theorem Within.retain {s t : Nat} {b : Batcher} (h : Within s t b) (hb : b.Sound)
    (live : PaneId → Bool) : Within s t (b.retain live).2.2 := by
  rw [retain_eq hb.reliable]
  exact ⟨fun p buffer hw => h.quiet p buffer (waits_keep hw),
    fun p buffer hw => h.young p buffer (waits_keep hw)⟩

/-! ### Operations on a running loop -/

section Running
variable {s : Nat} {b : Batcher} {loop : Supervisor.State} {period deadline : Nat}

/-- **A write** wakes the loop, or the deadline is in time for it. -/
theorem Running.write (h : Running s b loop period deadline) (p : PaneId) (d : ByteArray) :
    Running s (b.write p d).2 loop period deadline := by
  have hsound := h.sound.write p d
  have hwithin : b.Timely s deadline → b.idle = false → Within s deadline (b.write p d).2 :=
    fun ht hi => ht.within.write h.sound (ht.busy hi) p d
  rcases h.sound.write_eq p d with he | ⟨pool, crossed, -, he⟩
  · rw [he]; exact h
  rw [he] at hsound hwithin ⊢
  refine ⟨hsound, h.began, h.task, h.phase, h.period_pos, ?_⟩
  rcases h.heeded with hw | ht
  · exact .inl (by simp [hw])
  by_cases hidle : b.idle = true
  · -- nothing waited, so this write ends the idle time
    left
    cases hb : (b.bufferOf p).isIdle with
    | true => simp [hidle]
    | false => exact absurd (waits_of_bufferOf hb) (ht.calm hidle p _)
  · have hidle : b.idle = false := by simpa using hidle
    exact .inr ⟨fun hi => absurd (hidle.symm.trans hi) (by decide), fun _ => ht.busy hidle,
      hwithin ht hidle⟩

/-- Panes that are let go leave the others as they were. -/
theorem Running.retain (h : Running s b loop period deadline) (live : PaneId → Bool) :
    Running s (b.retain live).2.2 loop period deadline := by
  have hsound := h.sound.retain live
  have hwithin := fun ht : b.Timely s deadline => ht.within.retain h.sound live
  rw [retain_eq h.sound.reliable] at hsound hwithin ⊢
  exact ⟨hsound, h.began, h.task, h.phase, h.period_pos, h.heeded.imp id fun ht =>
    ⟨fun hi p buffer hw => ht.calm hi p buffer (waits_keep hw), ht.busy, hwithin ht⟩⟩

theorem Running.start (h : Running s b loop period deadline) : b.start = b := by
  unfold Batcher.start
  rw [h.task]

end Running

/-! ### Before the first look -/

/-- **A loop that has not begun**, at a moment: it was not started, or just now. -/
structure Parked (t : Nat) (b : Batcher) (task : Task) : Prop where
  sound : b.Sound
  now : b.now = t
  task : b.task = task
  idle : b.idle = false

section Parked
variable {t : Nat} {b : Batcher} {task : Task}

theorem Parked.write (h : Parked t b task) (p : PaneId) (d : ByteArray) :
    Parked t (b.write p d).2 task := by
  have hsound := h.sound.write p d
  rcases h.sound.write_eq p d with he | ⟨pool, crossed, -, he⟩
  · rw [he]; exact h
  · rw [he] at hsound ⊢
    exact ⟨hsound, h.now, h.task, h.idle⟩

theorem Parked.retain (h : Parked t b task) (live : PaneId → Bool) :
    Parked t (b.retain live).2.2 task := by
  have hsound := h.sound.retain live
  rw [retain_eq h.sound.reliable] at hsound ⊢
  exact ⟨hsound, h.now, h.task, h.idle⟩

/-- Nothing is late at the moment at which the loop is started. -/
theorem Parked.within (h : Parked t b task) : Within t (b.now + 1) b := by
  have hpos := h.sound.interval_pos
  have hnow := h.now
  exact ⟨fun p buffer _ => by omega, fun p buffer _ => by omega⟩

theorem Parked.settle (h : Parked t b .absent) : b.settle = b :=
  turns_of_none (by unfold Batcher.turn; rw [h.task]) 16

theorem Parked.advance (h : Parked t b .absent) (ms : Nat) :
    Parked (t + ms) (b.advance ms) .absent := by
  have htimer : b.nextTimer = none := by unfold nextTimer; rw [h.task]
  unfold Batcher.advance Batcher.advanceTo
  rw [htimer]
  exact ⟨h.sound.aside _ b.idle b.wake b.task, by simp only [h.now], h.task, h.idle⟩

theorem Parked.start (h : Parked t b .absent) :
    ∃ loop, Parked t b.start (.active loop 0 0) ∧ loop.phase = .ready := by
  refine ⟨.fresh b.restart, ?_, rfl⟩
  have hs : b.start = { b with task := .active (.fresh b.restart) 0 0 } := by
    unfold Batcher.start
    rw [h.task, h.sound.stopped]
    rfl
  rw [hs]
  exact ⟨h.sound.aside b.now b.idle b.wake _, h.now, rfl, h.idle⟩

/-- **The loop begins** with the base interval. -/
theorem Parked.turn {loop : Supervisor.State} (h : Parked t b (.active loop 0 0))
    (hphase : loop.phase = .ready) :
    ∃ b' loop' period deadline, b.turn = some b' ∧ Running t b' loop' period deadline ∧
      b'.now = t := by
  have hturn : b.turn = some { b with
      task := .active (loop.begin b.now) b.policy.interval (b.now + b.policy.interval) } := by
    unfold Batcher.turn
    simp only [h.task, hphase, h.sound.cancelled, Bool.false_eq_true, if_false]
  have hnow := h.now
  refine ⟨_, loop.begin b.now, _, _, hturn, ⟨h.sound.aside b.now b.idle b.wake _,
    Nat.le_of_eq hnow.symm, rfl, ⟨b.now, by simp [Supervisor.State.begin, hphase]⟩,
    h.sound.interval_pos, .inr ⟨fun hi => ?_, fun _ => Nat.le_refl _, ?_⟩⟩, hnow⟩
  · exact absurd (h.idle.symm.trans hi) (by decide)
  · exact ⟨fun p buffer _ => by simp only; omega, fun p buffer _ => by simp only; omega⟩

end Parked

/-! ### The passing of time -/

/-- A loop at work stays one while the clock goes on. -/
theorem Running.tick {s t : Nat} {b : Batcher} {loop : Supervisor.State} {period deadline : Nat}
    (h : Running s b loop period deadline) (ht : b.now ≤ t) :
    Running s { b with now := t } loop period deadline := by
  refine ⟨h.sound.aside t b.idle b.wake b.task, Nat.le_trans h.began ht, h.task, h.phase,
    h.period_pos, h.heeded.imp id fun hh => ⟨hh.calm, fun hi => ?_,
      hh.within.quiet, hh.within.young⟩⟩
  have := hh.busy hi
  simp only
  omega

theorem advanceTo_succ {b : Batcher} {deadline : Nat} (h : b.nextTimer = some deadline)
    (hlt : b.now < deadline) (fuel till : Nat) :
    b.advanceTo (fuel + 1) till = if deadline ≤ till
      then Batcher.advanceTo fuel till (Batcher.settle { b with now := deadline })
      else { b with now := till } := by
  rw [Batcher.advanceTo, h]
  simp only [Nat.max_eq_right (Nat.le_of_lt hlt)]

theorem Resting.nextTimer {s : Nat} {b : Batcher} (h : Resting s b) :
    ∃ deadline, b.nextTimer = some deadline ∧ b.now < deadline ∧
      Resting s (Batcher.settle { b with now := deadline }) ∧
      ∀ t, b.now ≤ t → t < deadline → Resting s { b with now := t } := by
  obtain ⟨loop, period, deadline, hr, hwake, hlt⟩ := h
  obtain ⟨since, hphase⟩ := hr.phase
  refine ⟨deadline, by simp only [Batcher.nextTimer, hr.task, hphase], hlt,
    (hr.tick (Nat.le_of_lt hlt)).settle, fun t ht htl => ?_⟩
  exact ⟨loop, period, deadline, hr.tick ht, hwake, htl⟩

/-- **Time passes** from look to look. -/
theorem Resting.advanceTo {s till : Nat} {b : Batcher} (h : Resting s b) (hle : b.now ≤ till)
    (fuel : Nat) (hf : till - b.now < fuel) : Resting s (b.advanceTo fuel till) := by
  induction fuel generalizing b with
  | zero => omega
  | succ fuel ih =>
    obtain ⟨deadline, htimer, hlt, hnext, hstay⟩ := h.nextTimer
    have hnow : (Batcher.settle { b with now := deadline }).now = deadline := turns_now 16 _
    rw [advanceTo_succ htimer hlt]
    by_cases hd : deadline ≤ till
    · rw [if_pos hd]
      exact ih hnext (by omega) (by omega)
    · rw [if_neg hd]
      exact hstay till hle (by omega)

theorem Resting.advance {s : Nat} {b : Batcher} (h : Resting s b) (ms : Nat) :
    Resting s (b.advance ms) :=
  h.advanceTo (by omega) _ (by omega)

/-- One timer a millisecond is enough. -/
theorem Resting.advanceTo_fuel {s till : Nat} {b : Batcher} (h : Resting s b) {n m : Nat}
    (hn : till - b.now < n) (hm : till - b.now < m) : b.advanceTo n till = b.advanceTo m till := by
  induction n generalizing b m with
  | zero => omega
  | succ n ih =>
    obtain ⟨m, rfl⟩ : ∃ k, m = k + 1 := ⟨m - 1, by omega⟩
    obtain ⟨deadline, htimer, hlt, hnext, -⟩ := h.nextTimer
    have hnow : (Batcher.settle { b with now := deadline }).now = deadline := turns_now 16 _
    rw [advanceTo_succ htimer hlt, advanceTo_succ htimer hlt]
    by_cases hd : deadline ≤ till
    · rw [if_pos hd, if_pos hd]
      exact ih hnext (by omega) (by omega)
    · rw [if_neg hd, if_neg hd]

theorem Resting.advanceTo_advanceTo {s mid till : Nat} {b : Batcher} (h : Resting s b)
    (hmid : b.now ≤ mid) (htill : mid ≤ till) {n m k : Nat} (hn : till - b.now < n)
    (hm : mid - b.now < m) (hk : till - mid < k) :
    b.advanceTo n till = (b.advanceTo m mid).advanceTo k till := by
  induction m generalizing b n with
  | zero => omega
  | succ m ih =>
    obtain ⟨n, rfl⟩ : ∃ i, n = i + 1 := ⟨n - 1, by omega⟩
    obtain ⟨k, rfl⟩ : ∃ i, k = i + 1 := ⟨k - 1, by omega⟩
    obtain ⟨deadline, htimer, hlt, hnext, -⟩ := h.nextTimer
    have hnow : (Batcher.settle { b with now := deadline }).now = deadline := turns_now 16 _
    rw [advanceTo_succ htimer hlt n, advanceTo_succ htimer hlt m]
    by_cases hd : deadline ≤ mid
    · rw [if_pos hd, if_pos (Nat.le_trans hd htill)]
      exact ih hnext (by omega) (by omega) (by omega)
    have htimer' : Batcher.nextTimer { b with now := mid } = some deadline := htimer
    rw [if_neg hd, advanceTo_succ htimer' (Nat.lt_of_not_le hd)]
    by_cases hd' : deadline ≤ till
    · rw [if_pos hd', if_pos hd']
      exact hnext.advanceTo_fuel (by omega) (by omega)
    · rw [if_neg hd', if_neg hd']

/-- **Time passes in one piece or in several**, so every moment on the way is one at which the clock
may stop. -/
theorem Resting.advance_add {s : Nat} {b : Batcher} (h : Resting s b) (m n : Nat) :
    b.advance (m + n) = (b.advance m).advance n := by
  have hnow := advance_now b m
  unfold Batcher.advance at hnow ⊢
  rw [hnow, ← Nat.add_assoc]
  exact h.advanceTo_advanceTo (by omega) (by omega) (by omega) (by omega) (by omega)

/-! ### Any order of things -/

/-- **A move, at its time:** the loop comes to rest before the clock goes on. -/
def pace (b : Batcher) : Move → Batcher
  | .tick ms => b.settle.advance ms
  | m => b.move m

/-- The state after moves, each at its time. -/
def paced (b : Batcher) (ms : List Move) : Batcher := ms.foldl pace b

/-- A move that lets the loop go on and leaves the clock to `pace`. -/
def Move.goesOn : Move → Bool
  | .op (.sleep _) | .op .cancel | .op .stop | .halt => false
  | _ => true

/-- **A loop that goes on**, begun at `s`, with nothing late. -/
inductive Kept (s : Nat) (b : Batcher) : Prop where
  | parked {loop : Supervisor.State} (parked : Parked s b (.active loop 0 0))
      (phase : loop.phase = .ready)
  | running {loop : Supervisor.State} {period deadline : Nat}
      (running : Running s b loop period deadline) (within : Within s (b.now + 1) b)

theorem Resting.kept {s : Nat} {b : Batcher} (h : Resting s b) : Kept s b := by
  obtain ⟨loop, period, deadline, hr, hwake, hlt⟩ := h
  rcases hr.heeded with hw | ht
  · exact absurd (hwake.symm.trans hw) (by decide)
  refine .running hr ⟨fun p buffer hw => ?_, fun p buffer hw => ?_⟩
  · have := ht.within.quiet p buffer hw
    omega
  · have := ht.within.young p buffer hw
    omega

namespace Kept
variable {s : Nat} {b : Batcher}

theorem began (h : Kept s b) : s ≤ b.now := by
  cases h with
  | parked h _ => exact Nat.le_of_eq h.now.symm
  | running h _ => exact h.began

theorem within (h : Kept s b) : Within s (b.now + 1) b := by
  cases h with
  | parked h _ => exact h.within
  | running _ h => exact h

theorem settle (h : Kept s b) : Resting s b.settle := by
  cases h with
  | parked h hphase =>
    obtain ⟨b', loop', period, deadline, ht, hr, -⟩ := h.turn hphase
    unfold Batcher.settle
    rw [turns_of_some ht]
    exact hr.turns 14
  | running h _ => exact h.settle

theorem turn (h : Kept s b) : Kept s (b.turn.getD b) := by
  cases h with
  | parked h hphase =>
    obtain ⟨b', loop', period, deadline, ht, hr, hnow⟩ := h.turn hphase
    have hpos := hr.sound.interval_pos
    rw [ht]
    exact .running hr ⟨fun p buffer _ => by simp only [Option.getD_some]; omega,
      fun p buffer _ => by simp only [Option.getD_some]; omega⟩
  | running h hw =>
    rcases h.turn with hr | ⟨b', ht, hr⟩
    · rw [hr.turn]
      exact .running h hw
    · rw [ht]
      exact hr.kept

theorem start (h : Kept s b) : b.start = b := by
  cases h with
  | parked h _ => unfold Batcher.start; rw [h.task]
  | running h _ => exact h.start

theorem write (h : Kept s b) (p : PaneId) (d : ByteArray) : Kept s (b.write p d).2 := by
  cases h with
  | parked h hphase => exact .parked (h.write p d) hphase
  | running h hw =>
    have hpos := h.sound.interval_pos
    refine .running (h.write p d) ?_
    rw [h.sound.write_now]
    exact hw.write h.sound (by omega) p d

theorem retain (h : Kept s b) (live : PaneId → Bool) : Kept s (b.retain live).2.2 := by
  cases h with
  | parked h hphase => exact .parked (h.retain live) hphase
  | running h hw =>
    refine .running (h.retain live) ?_
    have hnow : (b.retain live).2.2.now = b.now := by rw [retain_eq h.sound.reliable]
    rw [hnow]
    exact hw.retain h.sound live

/-- **What comes at its time** keeps a loop that goes on. -/
theorem pace (h : Kept s b) {m : Move} (hm : m.goesOn = true) : Kept s (b.pace m) := by
  cases m with
  | tick ms => exact (h.settle.advance ms).kept
  | turn => exact h.turn
  | halt => cases hm
  | op o =>
    cases o with
    | start =>
      show Kept s b.start
      rwa [h.start]
    | write p d => exact h.write p d
    | writes items => exact writeAll_induct (fun _ p d h => h.write p d) h items
    | remove p =>
      show Kept s (b.remove p).2
      rw [remove_eq_retain]
      exact h.retain _
    | retain live => exact h.retain _
    | sleep ms => cases hm
    | cancel => cases hm
    | stop => cases hm

theorem paced (h : Kept s b) {ms : List Move} (hms : ∀ m ∈ ms, m.goesOn = true) :
    Kept s (b.paced ms) := by
  induction ms generalizing b with
  | nil => exact h
  | cons m ms ih =>
    exact ih (h.pace (hms m List.mem_cons_self)) fun m' hm => hms m' (List.mem_cons_of_mem _ hm)

end Kept

/-- A batcher whose loop was not started yet, or one whose loop goes on. -/
def Fit (b : Batcher) : Prop := Parked b.now b .absent ∨ ∃ s, Kept s b

theorem Parked.fit {t : Nat} {b : Batcher} (h : Parked t b .absent) : Fit b :=
  .inl ⟨h.sound, rfl, h.task, h.idle⟩

theorem Fit.start {b : Batcher} (h : Fit b) : ∃ s, s ≤ b.now ∧ Kept s b.start := by
  rcases h with h | ⟨s, h⟩
  · obtain ⟨loop, hp, hphase⟩ := h.start
    exact ⟨b.now, Nat.le_refl _, .parked hp hphase⟩
  · exact ⟨s, h.began, by rwa [h.start]⟩

theorem Fit.pace {b : Batcher} (h : Fit b) {m : Move} (hm : m.goesOn = true) : Fit (b.pace m) := by
  have hfit := h
  rcases h with h | ⟨s, h⟩
  case inr => exact .inr ⟨s, h.pace hm⟩
  cases m with
  | tick ms =>
    show Fit (b.settle.advance ms)
    rw [h.settle]
    exact (h.advance ms).fit
  | turn =>
    have ht : b.turn = none := by unfold Batcher.turn; rw [h.task]
    show Fit (b.turn.getD b)
    rwa [ht]
  | halt => cases hm
  | op o =>
    cases o with
    | start =>
      obtain ⟨s, -, hs⟩ := hfit.start
      exact .inr ⟨s, hs⟩
    | write p d => exact (h.write p d).fit
    | writes items =>
      exact (writeAll_induct (P := fun b' => Parked b.now b' .absent)
        (fun _ p d h => h.write p d) h items).fit
    | remove p =>
      show Fit (b.remove p).2
      rw [remove_eq_retain]
      exact (h.retain _).fit
    | retain live => exact (h.retain _).fit
    | sleep ms => cases hm
    | cancel => cases hm
    | stop => cases hm

theorem Fit.paced {b : Batcher} (h : Fit b) {ms : List Move} (hms : ∀ m ∈ ms, m.goesOn = true) :
    Fit (b.paced ms) := by
  induction ms generalizing b with
  | nil => exact h
  | cons m ms ih =>
    exact ih (h.pace (hms m List.mem_cons_self)) fun m' hm => hms m' (List.mem_cons_of_mem _ hm)

theorem fit_fresh (sec : Config.BatchSection) (restart : RestartPolicy) :
    Fit (fresh (.ofSection sec) restart) := by
  have hpos : 0 < (BatchPolicy.ofSection sec).interval := by
    simp only [BatchPolicy.ofSection]
    omega
  have hidle : 0 < (BatchPolicy.ofSection sec).idleInterval := by
    simp only [BatchPolicy.ofSection]
    omega
  exact .inl ⟨⟨rfl, by simp [fresh], rfl, rfl, rfl, hpos, hidle⟩, rfl, rfl, rfl⟩

theorem pace_policy (b : Batcher) (m : Move) : (b.pace m).policy = b.policy := by
  cases m with
  | tick ms =>
    show (b.settle.advance ms).policy = b.policy
    unfold Batcher.advance
    rw [advanceTo_policy]
    exact turns_policy _ _
  | _ => exact move_policy _ _

theorem paced_policy (b : Batcher) (ms : List Move) : (b.paced ms).policy = b.policy := by
  induction ms generalizing b with
  | nil => rfl
  | cons m ms ih => exact (ih _).trans (pace_policy b m)

/-- **Bounded latency.** The loop of a batcher is started, and goes on, with a policy that was read
from a section and a sink that never fails. Whatever is written, removed and retained, and whatever
time passes before and after: no buffer that waits is late, neither by its last write nor by its
first byte. -/
theorem waiting_lt (sec : Config.BatchSection) (restart : RestartPolicy) (before after : List Move)
    (h : ∀ m ∈ before ++ after, m.goesOn = true) :
    let policy := BatchPolicy.ofSection sec
    let ready := (fresh policy restart).paced before
    let b := ready.start.paced after
    ∀ p buffer, b.Waits p buffer →
      b.now < max buffer.lastWrite ready.now + 2 * policy.interval ∧
        b.now < max buffer.pendingSince ready.now + policy.maxAge + policy.interval := by
  intro policy ready b p buffer hw
  have hready : Fit ready := (fit_fresh sec restart).paced fun m hm => h m (by simp [hm])
  obtain ⟨s, hs, hkept⟩ := hready.start
  have hb : Kept s b := hkept.paced fun m hm => h m (by simp [hm])
  have hpolicy : b.policy = policy :=
    (paced_policy _ _).trans ((apply_policy ready .start).trans (paced_policy _ _))
  have hwithin := hb.within.mono hs
  rw [← hpolicy]
  exact ⟨hwithin.quiet p buffer hw, hwithin.young p buffer hw⟩

/-- A write after the loop has backed off, and ten milliseconds in which it waits. -/
theorem waiting_lt_after_backoff :
    let policy := BatchPolicy.ofSection {}
    let ready := (fresh policy (.ofSection {})).paced [.tick 3]
    let b := ready.start.paced [.tick 500, .op (.write "%1" ⟨#[104]⟩), .turn, .tick 10]
    ∃ buffer, b.Waits "%1" buffer ∧
      b.now < max buffer.lastWrite ready.now + 2 * policy.interval ∧
      b.now < max buffer.pendingSince ready.now + policy.maxAge + policy.interval :=
  ⟨⟨⟨#[104]⟩, 503, 503⟩, ⟨rfl, rfl⟩,
    waiting_lt {} (.ofSection {}) [.tick 3] _ (by decide) "%1" _ ⟨rfl, rfl⟩⟩

end PaneRelay.Batcher
