import PaneRelay.Proofs.Batcher.Failing
import PaneRelay.Proofs.Batcher.Latency
import PaneRelay.Proofs.Runs

/-! # Writers and the loop, step by step

A write takes two steps: it adds its bytes under the lock, and then looks at the idle flag, which
the lock does not cover, to see whether it has to wake the loop. A look of the loop takes two as
well: a flush round, and then the setting of the tick and of the flag. Any number of writers and the
loop may be between their steps at the same time.

* `round`, `conclude`: a look in two steps; `look_eq_round` puts them together.
* `holds`: whose bytes wait, with what an append, a round and a release do to it.
* `Crew`, `Crew.step`, `Crew.run`: the writers and the loop, in any order.
* `run_write`, `run_turn`: the steps of a write and of a turn, with nothing in between, are `write`
  and `turn`. -/

namespace PaneRelay

/-- Whether an attempt runs. -/
def Supervisor.State.isRunning (s : Supervisor.State) : Bool :=
  match s.phase with
  | .running _ => true
  | _ => false

/-- A loop whose attempt failed does not run. -/
theorem Supervisor.State.isRunning_finish {p : RestartPolicy} {name : String}
    {s : Supervisor.State} {now : Nat} {e : Ending} (hs : s.isRunning = true)
    (he : e.reason?.isSome = true) : (s.finish p name now e).isRunning = false := by
  obtain ⟨reason, he⟩ := Option.isSome_iff_exists.mp he
  unfold isRunning at hs
  unfold finish
  split at hs
  · next since hp =>
    simp only [hp, he]
    split <;> rfl
  · cases hs

namespace Batcher

/-! ### A look in two steps -/

/-- **What a flush round found:** the attempt and the tick it belongs to, how many buffers it drained,
and whether others held bytes after it. -/
structure Finding where
  /-- The attempt. -/
  loop : Supervisor.State
  /-- The tick that ended with the round. -/
  period : Nat
  /-- How many buffers were drained. -/
  flushed : Nat
  /-- Whether bytes waited after it. -/
  pending : Bool
deriving DecidableEq

/-- Whether there was nothing to do. -/
def Finding.isIdle (f : Finding) : Bool := f.flushed = 0 && !f.pending

/-- **The first half of a look:** a flush round. A failure of the sink ends the attempt, and then
there is no second half. -/
def round (b : Batcher) (loop : Supervisor.State) (period : Nat) : Batcher × Option Finding :=
  let (flushed, pending) := b.roundCount
  match b.flushDue with
  | (some e, b) =>
    let loop := loop.finish b.restart loopName b.now (.panicked (some e))
    ({ b with task := .active { loop with events := [] } period b.now
              events := b.events ++ loop.events }, none)
  | (none, b) => (b, some ⟨loop, period, flushed, pending⟩)

/-- **The second half:** the loop sets its tick and the idle flag by what it found. -/
def conclude (b : Batcher) (f : Finding) : Batcher :=
  let period := nextPeriod b.policy f.period f.flushed f.pending
  { b with idle := f.isIdle, task := .active f.loop period (b.now + period) }

theorem look_eq_round (b : Batcher) (loop : Supervisor.State) (period : Nat) :
    b.look loop period =
      ((b.round loop period).2.map (b.round loop period).1.conclude).getD
        (b.round loop period).1 := by
  unfold look round
  generalize b.flushDue = r
  obtain ⟨e, b'⟩ := r
  cases e <;> rfl

/-! ### Whose bytes wait -/

/-- **Whether bytes of a pane wait.** -/
def holds (b : Batcher) (p : PaneId) : Prop := buffered b.panes p ≠ ByteArray.empty

theorem holds_iff_waits {b : Batcher} {p : PaneId} :
    b.holds p ↔ ∃ buffer, b.panes.find? p = some buffer ∧ buffer.isIdle = false := by
  unfold holds buffered
  cases b.panes.find? p with
  | none => simp [waitingIn]
  | some buffer =>
    have h := Buffer.isIdle_iff (b := buffer)
    cases hi : buffer.isIdle <;> simp [waitingIn, ← h, hi]

/-- Empty buffers in the pool. -/
def Pooled (b : Batcher) : Prop := ∀ d ∈ b.pool, d = ByteArray.empty

/-- The bytes of a write wait, and the writer knows whether others waited before them. -/
theorem holds_append {b : Batcher} (hb : b.Pooled) (p : PaneId) {d : ByteArray}
    (hd : d ≠ ByteArray.empty) :
    (∀ q, (b.append p d).1.holds q ↔ q = p ∨ b.holds q) ∧
      ((b.append p d).2.1 = false → b.holds p) := by
  obtain ⟨pool, crossed, -, ha⟩ := append_eq hb p d
  rw [ha]
  refine ⟨fun q => ?_, fun hf => ?_⟩
  · unfold holds buffered
    rw [PaneMap.find?_insert]
    by_cases hq : q = p
    · simp only [hq, if_true, true_or, iff_true]
      intro he
      exact hd (ByteArray.append_eq_empty_iff.mp he).2
    · simp only [hq, if_false, false_or]
  · intro he
    rw [← bufferOf_data, ← Buffer.isIdle_iff] at he
    exact absurd (he.symm.trans hf) (by decide)

theorem Pooled.append {b : Batcher} (hb : b.Pooled) (p : PaneId) (d : ByteArray) :
    (b.append p d).1.Pooled := by
  obtain ⟨pool, crossed, hpool, ha⟩ := append_eq hb p d
  rw [ha]
  exact hpool

/-- A round that is said to leave nothing leaves nothing. -/
theorem not_holds_flushDue {b : Batcher} (hp : b.roundCount.2 = false) (p : PaneId) :
    ¬ b.flushDue.2.holds p := by
  rw [holds_iff_waits]
  rintro ⟨buffer, hf, hi⟩
  have hany : b.roundCount.2 = true := by
    rw [roundCount_eq]
    exact anyPending_of_find? hf hi
  exact absurd (hp.symm.trans hany) (by decide)

/-- **Letting panes go** touches their buffers, the pool and the sink. -/
theorem retain_parts {b : Batcher} (hb : b.Pooled) (live : PaneId → Bool) :
    ∃ pool sink, (∀ d ∈ pool, d = ByteArray.empty) ∧
      (b.retain live).2.2 = { b with panes := b.panes.keep live, pool, sink } := by
  obtain ⟨pool, hpool, hd⟩ := drain_eq b (.retain live)
  exact ⟨pool, _, fun e he => (hpool e he).elim (hb e) id, congrArg Prod.snd hd⟩

theorem holds_keep {b : Batcher} {live : PaneId → Bool} {pool : List ByteArray} {sink : Sink}
    {p : PaneId} :
    holds { b with panes := b.panes.keep live, pool, sink } p ↔ b.holds p ∧ live p = true := by
  unfold holds
  rw [buffered_keep]
  cases live p <;> simp

/-- **A round** drains what is due. It brings what it found, or it ends the attempt. -/
theorem round_cases (b : Batcher) (loop : Supervisor.State) (period : Nat) :
    b.round loop period =
        (b.flushDue.2, some ⟨loop, period, b.roundCount.1, b.roundCount.2⟩) ∨
      ∃ e events, b.round loop period = ({ b.flushDue.2 with
        task := .active { loop.finish b.restart loopName b.now (.panicked (some e)) with
          events := [] } period b.now
        events }, none) := by
  unfold round
  cases h : b.flushDue with
  | mk e b' =>
    have hb : b' = b.flushDue.2 := by rw [h]
    cases e with
    | none => exact .inl rfl
    | some e => exact .inr ⟨e, _, by rw [hb]; rfl⟩

/-! ### Writers and the loop -/

/-- **A writer between its two steps.** -/
structure Errand where
  /-- Whether its bytes found an empty buffer. -/
  first : Bool
  /-- Whether they filled it. -/
  crossed : Bool
deriving DecidableEq

/-- **A sleep of the loop.** -/
structure Sleep where
  /-- The attempt. -/
  loop : Supervisor.State
  /-- The tick. -/
  period : Nat
  /-- When the tick ends. -/
  deadline : Nat
deriving DecidableEq

/-- **The writers and the loop at work.** -/
structure Crew where
  /-- The batcher. -/
  batcher : Batcher
  /-- The writers that have added their bytes and not looked at the flag yet. -/
  errands : List Errand := []
  /-- What the loop has found, if it is between the two halves of a look. -/
  found : Option Finding := none
  /-- The panes that got bytes between the halves of the last look, and were not let go since. -/
  slipped : List PaneId := []

/-- **What can happen.** -/
inductive Step where
  /-- A writer adds bytes, or hands them straight through after a stop. -/
  | append (p : PaneId) (data : ByteArray)
  /-- A writer that has done so looks at the flag, and wakes the loop or not. -/
  | test (i : Nat)
  /-- The loop takes the wake-up that is stored, and makes a round. -/
  | wake
  /-- The tick is over, and the loop makes a round, whether or not a wake-up is stored. -/
  | tick
  /-- The loop sets its tick and the flag, and goes to sleep. -/
  | conclude
  /-- Time passes. -/
  | elapse (ms : Nat)
  /-- The loop is started. -/
  | start
  /-- The supervisor begins an attempt, ends a pause, or notices that it is cancelled. -/
  | supervise
  /-- Panes that fail a test are let go. -/
  | retain (live : PaneId → Bool)
  /-- The token given to the loop fires. -/
  | fire
  /-- The batcher's own token fires: a stop has begun. -/
  | halt
  /-- The last flush of a stop, after which output passes straight through. -/
  | shut

namespace Crew

/-- Writers and a loop in front of a batcher, all of them at rest. -/
def of (b : Batcher) : Crew := { batcher := b }

/-- The sleep of the loop, if it sleeps. -/
def sleep? (c : Crew) : Option Sleep :=
  match c.found, c.batcher.task with
  | none, .active loop period deadline =>
    if loop.isRunning then some ⟨loop, period, deadline⟩ else none
  | _, _ => none

/-- The loop makes a round. -/
def rouse (c : Crew) (s : Sleep) : Crew :=
  let (batcher, found) := c.batcher.round s.loop s.period
  { c with batcher, found, slipped := [] }

/-- A step of the loop's task that is no look, if it has one to take. Between the halves of a look it
does nothing else: the loop does not give up its turn there. -/
def supervised (c : Crew) : Option Crew :=
  if c.found.isSome then none
  else if c.sleep?.isSome && !c.batcher.cancelled then
    if c.batcher.shutdown then some { c with batcher := { c.batcher with cancelled := true } }
    else none
  else c.batcher.turn.map fun batcher => { c with batcher }

/-- The state after a step, if it can be taken. -/
def step (c : Crew) : Step → Option Crew
  | .append p data =>
    if data.isEmpty then none
    else if c.batcher.stopped then some { c with batcher := (c.batcher.write p data).2 }
    else
      let (batcher, first, crossed) := c.batcher.append p data
      some { c with
        batcher, errands := c.errands ++ [⟨first, crossed⟩]
        slipped := if c.found.isSome then p :: c.slipped else c.slipped }
  | .test i =>
    c.errands[i]?.map fun e =>
      { c with batcher := c.batcher.signal e.first e.crossed, errands := c.errands.eraseIdx i }
  | .wake =>
    if c.batcher.wake then
      c.sleep?.map fun s => rouse { c with batcher := { c.batcher with wake := false } } s
    else none
  | .tick => (c.sleep?.filter fun s => s.deadline ≤ c.batcher.now).map c.rouse
  | .conclude => c.found.map fun f => { c with batcher := c.batcher.conclude f, found := none }
  | .elapse ms => some { c with batcher := { c.batcher with now := c.batcher.now + ms } }
  | .start => some { c with batcher := c.batcher.start }
  | .supervise => c.supervised
  | .retain live =>
    some { c with batcher := (c.batcher.retain live).2.2, slipped := c.slipped.filter live }
  | .fire => some { c with batcher := { c.batcher with shutdown := true } }
  | .halt => some { c with batcher := { c.batcher with cancelled := true } }
  | .shut =>
    match c.batcher.task with
    | .active .. => none
    | _ => some { c with batcher := { c.batcher.flushAll.2 with stopped := true }, slipped := [] }

/-- The state after some steps, if they can be taken in this order. -/
def run (c : Crew) (ss : List Step) : Option Crew := ss.foldlM step c

@[simp] theorem run_nil (c : Crew) : c.run [] = some c := rfl

@[simp] theorem run_cons (c : Crew) (s : Step) (ss : List Step) :
    c.run (s :: ss) = (c.step s).bind (·.run ss) := rfl

/-- What every step keeps, every run keeps. -/
theorem run_induct {P : Crew → Prop} (hstep : ∀ c s d, P c → c.step s = some d → P d)
    {c d : Crew} {ss : List Step} (hc : P c) (hr : c.run ss = some d) : P d :=
  foldlM_induct hstep hc hr

theorem sleep?_eq_some {c : Crew} {s : Sleep} :
    c.sleep? = some s ↔
      c.found = none ∧ c.batcher.task = .active s.loop s.period s.deadline ∧
        s.loop.isRunning = true := by
  unfold sleep?
  split
  · next loop period deadline hf ht =>
    rw [Option.ite_none_right_eq_some, hf, ht]
    constructor
    · rintro ⟨hl, he⟩
      cases he
      exact ⟨rfl, rfl, hl⟩
    · rintro ⟨-, he, hl⟩
      cases he
      exact ⟨hl, rfl⟩
  · next hn =>
    refine iff_of_false (by simp) ?_
    rintro ⟨hf, ht, -⟩
    exact hn _ _ _ hf ht

/-! ### Steps with nothing in between -/

/-- **A write** is its two steps. -/
theorem run_write {b : Batcher} {d : ByteArray} (hd : d.isEmpty = false) (hs : b.stopped = false)
    (p : PaneId) : (of b).run [.append p d, .test 0] = some (of (b.write p d).2) := by
  have hwrite : (b.write p d).2 =
      (b.append p d).1.signal (b.append p d).2.1 (b.append p d).2.2 := by
    unfold Batcher.write
    rw [hd, hs]
    rfl
  rw [hwrite]
  simp [run, step, of, hd, hs]

/-- A round with its second half right behind it is a look. -/
theorem run_look {b b₁ : Batcher} {s : Sleep} {t : Step}
    (hs : (of b).step t = some ((of b₁).rouse s)) :
    ∃ ss, (of b).run ss = some (of (b₁.look s.loop s.period)) := by
  rw [look_eq_round]
  cases hr : b₁.round s.loop s.period with
  | mk b₂ found =>
    have hrouse : (of b₁).rouse s = { of b₂ with found } := by
      simp only [rouse, of, hr]
    rw [hrouse] at hs
    cases found with
    | none =>
      refine ⟨[t], ?_⟩
      rw [run_cons, hs]
      rfl
    | some f =>
      refine ⟨[t, .conclude], ?_⟩
      rw [run_cons, hs]
      rfl

theorem step_supervise {b b' : Batcher} (h : b.turn = some b')
    (hs : (of b).sleep? = none ∨ b.cancelled = true) :
    (of b).step .supervise = some (of b') := by
  have hno : ¬ ((of b).sleep?.isSome && !(of b).batcher.cancelled) = true := by
    rcases hs with hs | hs
    · simp [hs]
    · simp [of, hs]
  show (of b).supervised = some (of b')
  unfold supervised
  rw [if_neg (by simp [of]), if_neg hno]
  show (b.turn.map fun batcher => { of b with batcher }) = some (of b')
  rw [h]
  rfl

/-- **A turn of the task** is one step, or the two of a look. -/
theorem run_turn {b b' : Batcher} (h : b.turn = some b') :
    ∃ ss, (of b).run ss = some (of b') := by
  have hone : ∀ {t}, (of b).step t = some (of b') → ∃ ss, (of b).run ss = some (of b') :=
    fun {t} ht => ⟨[t], by rw [run_cons, ht]; rfl⟩
  have hidle : ∀ {loop period deadline}, b.task = .active loop period deadline →
      loop.isRunning = false → (of b).sleep? = none := by
    intro loop period deadline ht hl
    simp [sleep?, of, ht, hl]
  have hawake : ∀ {loop period deadline since}, b.task = .active loop period deadline →
      loop.phase = .running since → (of b).sleep? = some ⟨loop, period, deadline⟩ := by
    intro loop period deadline since ht hp
    exact sleep?_eq_some.mpr ⟨rfl, ht, by simp [Supervisor.State.isRunning, hp]⟩
  cases turned_of_turn h with
  | ended task phase cancelled => exact hone (step_supervise h (.inr cancelled))
  | dropped task phase cancelled => exact hone (step_supervise h (.inr cancelled))
  | began task phase cancelled =>
    exact hone (step_supervise h (.inl (hidle task (by simp [Supervisor.State.isRunning, phase]))))
  | resumed task phase cancelled due =>
    exact hone (step_supervise h (.inl (hidle task (by simp [Supervisor.State.isRunning, phase]))))
  | linked cancelled shutdown =>
    refine hone (t := .supervise) ?_
    cases hs : (of b).sleep? with
    | none => exact step_supervise h (.inl hs)
    | some s =>
      simp only [step, supervised, hs, Option.isSome_some, Bool.true_and]
      simp [of, cancelled, shutdown]
  | @woken loop period deadline _ task phase cancelled wake =>
    refine run_look (t := .wake) (s := ⟨loop, period, deadline⟩) ?_
    simp only [step, hawake task phase]
    simp only [of, wake, if_true]
    rfl
  | @ticked loop period deadline _ task phase cancelled wake due =>
    refine run_look (t := .tick) (s := ⟨loop, period, deadline⟩) ?_
    simp only [step, hawake task phase]
    rw [Option.filter_some, if_pos (by exact decide_eq_true due)]
    rfl

end Crew

end Batcher

end PaneRelay
