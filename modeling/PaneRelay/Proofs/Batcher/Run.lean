import PaneRelay.Proofs.Batcher.Chunks

/-! # Runs of a batcher

Operations and steps of the loop may come in any order, and the clock may be late. A run is a list
of moves: an operation alone, one step of the loop, the clock alone, and the first half of a stop,
so that other moves can fall between its halves.

* `Batcher.run`: the state after a list of moves.
* `Turned`, `turned_of_turn`: what a step of the loop can be. There are seven kinds, and only two
  of them touch the buffers.
* `perform_eq_run`: an operation with the loop's answer to it is a run.
* `move_policy`: the policy stays. -/

namespace PaneRelay.Batcher

/-- A batcher that was not used yet, in front of a sink with a fate. -/
def fresh (policy : BatchPolicy) (restart : RestartPolicy)
    (fate : Nat → Option String := fun _ => none) : Batcher :=
  { policy, restart, sink := { fate } }

/-- **What can happen to a batcher.** -/
inductive Move where
  /-- An operation, without the loop's answer to it. -/
  | op (o : Op)
  /-- One step of the loop, if it has one to take. -/
  | turn
  /-- The clock goes on, and no timer is served yet. -/
  | tick (ms : Nat)
  /-- The batcher's own token fires: a stop has begun. -/
  | halt

/-- The state after a move. -/
def move (b : Batcher) : Move → Batcher
  | .op o => (b.apply o).2
  | .turn => b.turn.getD b
  | .tick ms => { b with now := b.now + ms }
  | .halt => { b with cancelled := true }

/-- **The state after a run.** -/
def run (b : Batcher) (ms : List Move) : Batcher := ms.foldl move b

@[simp] theorem run_nil (b : Batcher) : b.run [] = b := rfl

@[simp] theorem run_cons (b : Batcher) (m : Move) (ms : List Move) :
    b.run (m :: ms) = (b.move m).run ms := rfl

theorem run_append (b : Batcher) (ms ns : List Move) : b.run (ms ++ ns) = (b.run ms).run ns :=
  List.foldl_append

/-- The steps that the loop takes until it waits are a run. -/
theorem turns_eq_run (n : Nat) (b : Batcher) : ∃ k, turns n b = b.run (List.replicate k .turn) := by
  induction n generalizing b with
  | zero => exact ⟨0, rfl⟩
  | succ n ih =>
    unfold turns
    cases h : b.turn with
    | none => exact ⟨0, rfl⟩
    | some b' =>
      obtain ⟨k, hk⟩ := ih b'
      refine ⟨k + 1, ?_⟩
      rw [List.replicate_succ, run_cons, move, h]
      exact hk

/-- **An operation with the loop's answer to it** is a run. -/
theorem perform_eq_run (b : Batcher) (o : Op) :
    ∃ k, (b.perform o).2 = b.run (.op o :: List.replicate k .turn) :=
  turns_eq_run 16 _

/-- The state after operations, each with the loop's answer to it. -/
def performs (b : Batcher) (os : List Op) : Batcher := os.foldl (fun b o => (b.perform o).2) b

@[simp] theorem performs_nil (b : Batcher) : b.performs [] = b := rfl

@[simp] theorem performs_cons (b : Batcher) (o : Op) (os : List Op) :
    b.performs (o :: os) = (b.perform o).2.performs os := rfl

/-- Operations with the loop's answers to them are a run. -/
theorem performs_eq_run (b : Batcher) (os : List Op) : ∃ ms, b.performs os = b.run ms := by
  induction os generalizing b with
  | nil => exact ⟨[], rfl⟩
  | cons o os ih =>
    obtain ⟨k, hk⟩ := perform_eq_run b o
    obtain ⟨ms, hms⟩ := ih (b.perform o).2
    refine ⟨.op o :: List.replicate k .turn ++ ms, ?_⟩
    rw [performs_cons, hms, run_append, ← hk]

/-! ### Steps of the loop -/

/-- **The kinds of steps** that the loop can take. -/
inductive Turned (b : Batcher) : Batcher → Prop where
  /-- The supervised loop is over, and the token has fired: the last flush. -/
  | ended {loop : Supervisor.State} {period deadline : Nat} {o : Supervisor.Outcome}
      (task : b.task = .active loop period deadline) (phase : loop.phase = .done o)
      (cancelled : b.cancelled = true) : Turned b { b.flushAll.2 with task := .done }
  /-- The token that was given to the loop has fired, and fires the batcher's own. -/
  | linked (cancelled : b.cancelled = false) (shutdown : b.shutdown = true) :
      Turned b { b with cancelled := true }
  /-- The supervisor notices that it is cancelled. -/
  | dropped {loop : Supervisor.State} {period deadline : Nat}
      (task : b.task = .active loop period deadline) (phase : ∀ o, loop.phase ≠ .done o)
      (cancelled : b.cancelled = true) : Turned b { b with task := .active loop.cancel period deadline }
  /-- An attempt begins. -/
  | began {loop : Supervisor.State} {period deadline : Nat}
      (task : b.task = .active loop period deadline) (phase : loop.phase = .ready)
      (cancelled : b.cancelled = false) :
      Turned b { b with task := .active (loop.begin b.now) b.policy.interval
                          (b.now + b.policy.interval) }
  /-- A wake-up is taken. -/
  | woken {loop : Supervisor.State} {period deadline since : Nat}
      (task : b.task = .active loop period deadline) (phase : loop.phase = .running since)
      (cancelled : b.cancelled = false) (wake : b.wake = true) :
      Turned b ({ b with wake := false }.look loop period)
  /-- The tick has ended. -/
  | ticked {loop : Supervisor.State} {period deadline since : Nat}
      (task : b.task = .active loop period deadline) (phase : loop.phase = .running since)
      (cancelled : b.cancelled = false) (wake : b.wake = false) (due : deadline ≤ b.now) :
      Turned b (b.look loop period)
  /-- A pause has ended. -/
  | resumed {loop : Supervisor.State} {period deadline ends : Nat}
      (task : b.task = .active loop period deadline) (phase : loop.phase = .pausing ends)
      (cancelled : b.cancelled = false) (due : ends ≤ b.now) :
      Turned b { b with task := .active (loop.resume b.restart) period deadline }

/-- **A step of the loop is of one of these kinds.** -/
theorem turned_of_turn {b b' : Batcher} (h : b.turn = some b') : Turned b b' := by
  unfold turn at h
  split at h
  case h_2 => cases h
  next loop period deadline htask =>
  cases hp : loop.phase with
  | done o =>
    simp only [hp] at h
    split at h
    · next hc => cases h; exact .ended htask hp hc
    · next hc =>
      split at h
      · next hs => cases h; exact .linked (by simpa using hc) hs
      · cases h
  | ready =>
    simp only [hp] at h
    split at h
    · next hc => cases h; exact .dropped htask (by simp [hp]) hc
    · next hc => cases h; exact .began htask hp (by simpa using hc)
  | running since =>
    simp only [hp] at h
    split at h
    · next hc => cases h; exact .dropped htask (by simp [hp]) hc
    · next hc =>
      split at h
      · next hw => cases h; exact .woken htask hp (by simpa using hc) hw
      · next hw =>
        split at h
        · next hd =>
          cases h; exact .ticked htask hp (by simpa using hc) (by simpa using hw) hd
        · split at h
          · next hs => cases h; exact .linked (by simpa using hc) hs
          · cases h
  | pausing ends =>
    simp only [hp] at h
    split at h
    · next hc => cases h; exact .dropped htask (by simp [hp]) hc
    · next hc =>
      split at h
      · next hd => cases h; exact .resumed htask hp (by simpa using hc) hd
      · split at h
        · next hs => cases h; exact .linked (by simpa using hc) hs
        · cases h

theorem look_now (b : Batcher) (loop : Supervisor.State) (period : Nat) :
    (b.look loop period).now = b.now := by
  have h : b.flushDue.2.now = b.now := rfl
  unfold look
  generalize b.flushDue = r at h
  obtain ⟨e, b'⟩ := r
  cases e <;> exact h

/-- The loop takes no time for a step. -/
theorem Turned.now_eq {b b' : Batcher} (h : Turned b b') : b'.now = b.now := by
  cases h with
  | woken => exact look_now _ _ _
  | ticked => exact look_now _ _ _
  | _ => rfl

theorem turns_now (n : Nat) (b : Batcher) : (turns n b).now = b.now := by
  induction n generalizing b with
  | zero => rfl
  | succ n ih =>
    unfold turns
    split
    · next b' h => rw [ih, (turned_of_turn h).now_eq]
    · rfl

theorem turns_of_none {b : Batcher} (h : b.turn = none) (n : Nat) : turns n b = b := by
  cases n with
  | zero => rfl
  | succ n => rw [turns, h]

theorem turns_of_some {b b' : Batcher} (h : b.turn = some b') (n : Nat) :
    turns (n + 1) b = turns n b' := by
  rw [turns, h]

theorem advanceTo_now (fuel till : Nat) (b : Batcher) : (advanceTo fuel till b).now = till := by
  induction fuel generalizing b with
  | zero => rfl
  | succ fuel ih =>
    unfold advanceTo
    split
    · split
      · exact ih _
      · rfl
    · rfl

@[simp] theorem advance_now (b : Batcher) (ms : Nat) : (b.advance ms).now = b.now + ms :=
  advanceTo_now _ _ _

/-! ### The policy -/

theorem release_policy (b : Batcher) (l : List (PaneId × Buffer)) :
    (b.release l).2.policy = b.policy := by
  induction l generalizing b with
  | nil => rfl
  | cons e l ih =>
    obtain ⟨p, buffer⟩ := e
    unfold release
    split
    · exact ih _
    · split
      · exact ih _
      · rfl

theorem write_policy (b : Batcher) (p : PaneId) (d : ByteArray) :
    (b.write p d).2.policy = b.policy := by
  unfold write
  split
  · rfl
  · split
    · rfl
    · have h : (b.append p d).1.policy = b.policy := rfl
      generalize b.append p d = r at h
      obtain ⟨b', first, crossed⟩ := r
      show (b'.signal first crossed).policy = b.policy
      unfold signal
      split <;> exact h

/-- What every write keeps, several writes keep. -/
theorem writeAll_induct {P : Batcher → Prop} (step : ∀ b p d, P b → P (b.write p d).2)
    {b : Batcher} (h : P b) (items : List (PaneId × ByteArray)) : P (b.writeAll items).2 := by
  induction items generalizing b with
  | nil => exact h
  | cons e items ih =>
    obtain ⟨p, d⟩ := e
    have hb := step b p d h
    unfold writeAll
    generalize b.write p d = r at hb
    obtain ⟨e, b'⟩ := r
    cases e with
    | none => exact ih hb
    | some e => exact hb

theorem look_policy (b : Batcher) (loop : Supervisor.State) (period : Nat) :
    (b.look loop period).policy = b.policy := by
  have h : b.flushDue.2.policy = b.policy := rfl
  unfold look
  generalize b.flushDue = r at h
  obtain ⟨e, b'⟩ := r
  cases e <;> exact h

theorem Turned.policy_eq {b b' : Batcher} (h : Turned b b') : b'.policy = b.policy := by
  cases h with
  | woken => exact look_policy _ _ _
  | ticked => exact look_policy _ _ _
  | _ => rfl

theorem turns_policy (n : Nat) (b : Batcher) : (turns n b).policy = b.policy := by
  induction n generalizing b with
  | zero => rfl
  | succ n ih =>
    unfold turns
    split
    · next b' h => rw [ih, (turned_of_turn h).policy_eq]
    · rfl

theorem advanceTo_policy (fuel till : Nat) (b : Batcher) :
    (advanceTo fuel till b).policy = b.policy := by
  induction fuel generalizing b with
  | zero => rfl
  | succ fuel ih =>
    unfold advanceTo
    split
    · split
      · rw [ih]
        exact turns_policy _ _
      · rfl
    · rfl

theorem apply_policy (b : Batcher) (o : Op) : (b.apply o).2.policy = b.policy := by
  cases o with
  | start =>
    show b.start.policy = b.policy
    unfold start
    split
    · split <;> rfl
    · rfl
  | write p d => exact write_policy b p d
  | writes items =>
    refine writeAll_induct (P := fun b' => b'.policy = b.policy) (fun b' p d h => ?_) rfl items
    rw [write_policy, h]
  | sleep ms => exact advanceTo_policy _ _ _
  | remove p =>
    show (b.remove p).2.policy = b.policy
    unfold remove
    split
    · rfl
    · exact release_policy _ _
  | retain live => exact release_policy _ _
  | cancel => rfl
  | stop => exact turns_policy 16 _

/-- **The policy stays** whatever happens. -/
theorem move_policy (b : Batcher) (m : Move) : (b.move m).policy = b.policy := by
  cases m with
  | op o => exact apply_policy b o
  | turn =>
    show (b.turn.getD b).policy = b.policy
    cases h : b.turn with
    | none => rfl
    | some b' => exact (turned_of_turn h).policy_eq
  | tick ms => rfl
  | halt => rfl

end PaneRelay.Batcher
