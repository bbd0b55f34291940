import Mathlib.Algebra.Ring.Nat
import PaneRelay.Supervisor

/-! # When a failed loop starts again

Nobody cancels the loop. How many failures in a row an attempt ends depends only on how long the
attempts lasted, and that number alone says what follows: a pause of which length, or none and the
end. The counter and the next pause that a loop carries along are just that (`stateAt`), although
they are changed at different moments: the counter when an attempt fails, the pause when it is over.

* `streakAt`, `pauseAfter`, `startAt`: failures in a row, pauses, and moments at which attempts
  start.
* `Retried`: whether another attempt follows.
* `finish_retried`, `finish_last`: what one attempt does.
* `restart_schedule`: what a run does.
* `run_outcome_eq_none_iff`: a run on a list of attempts is cut off only if it goes on for ever. -/

namespace PaneRelay.Supervisor

section
variable (p : RestartPolicy) (name : String) (script : Nat → Attempt)

/-- **How many failures in a row there are** once attempt `k` has failed. An attempt that lasted
long enough, and the first one, count alone. -/
def streakAt : Nat → Nat
  | 0 => 1
  | k + 1 => if p.stableAfter ≤ (script (k + 1)).lasts then 1 else streakAt k + 1

/-- **The pause** after the last of so many failures in a row. -/
def pauseAfter (n : Nat) : Nat := min (p.initialBackoff * 2 ^ (n - 1)) p.maxBackoff

/-- **When attempt `k` starts**, if another attempt follows each one before it. -/
def startAt : Nat → Nat
  | 0 => 0
  | k + 1 => startAt k + (script k).lasts + pauseAfter p (streakAt p script k)

/-- **Whether another attempt follows attempt `k`:** it fails, and not too often in a row. -/
def Retried (k : Nat) : Prop :=
  (script k).ending ≠ .completed ∧ streakAt p script k ≤ p.maxRestarts.toNat

instance (k : Nat) : Decidable (Retried p script k) := inferInstanceAs (Decidable (_ ∧ _))

/-- What is reported of attempt `k` if another one follows. -/
def restartOf (k : Nat) : Event :=
  .restarted name (.ofNat (streakAt p script k)) ((script k).ending.reason?.getD "")

/-- How a run ends with an attempt that no other one follows, and what is reported of that one. -/
def lastWord (a : Attempt) : Outcome × List Event :=
  match a.ending.reason? with
  | none => (.completed, [])
  | some reason => (.exhausted, [.fatal name reason])

/-- The streak before attempt `k`. -/
def streakBefore : Nat → Streak
  | 0 => .start p
  | k + 1 => ⟨.ofNat (streakAt p script k), pauseAfter p (streakAt p script k + 1)⟩

/-- **The loop before attempt `k`.** -/
def stateAt (k : Nat) : State :=
  ⟨.ready, streakBefore p script k, (List.range k).map (restartOf p name script)⟩

end

variable {p : RestartPolicy} {name : String} {script : Nat → Attempt}

/-! ### Streaks and pauses -/

theorem streakAt_pos (k : Nat) : 1 ≤ streakAt p script k := by
  cases k with
  | zero => exact Nat.le_refl 1
  | succ k =>
    unfold streakAt
    split <;> omega

theorem streakAt_succ_le (k : Nat) : streakAt p script (k + 1) ≤ streakAt p script k + 1 := by
  rw [streakAt]
  split
  · exact Nat.le_add_left 1 _
  · exact Nat.le_refl _

/-- **Streaks are no longer than the restarts allow**, but for the attempt that ends the run. -/
theorem streakAt_le {k : Nat} (h : ∀ j < k, Retried p script j) :
    streakAt p script k ≤ p.maxRestarts.toNat + 1 := by
  cases k with
  | zero => exact Nat.le_add_left 1 _
  | succ k =>
    have hle := (h k (Nat.lt_succ_self k)).2
    have hsucc : streakAt p script (k + 1) ≤ streakAt p script k + 1 := streakAt_succ_le k
    omega

theorem pauseAfter_one (hp : p.initialBackoff ≤ p.maxBackoff) :
    pauseAfter p 1 = p.initialBackoff := by
  simp [pauseAfter, hp]

/-- A pause that is doubled and capped is the pause after one failure more. -/
theorem double_pauseAfter {n : Nat} (hn : 1 ≤ n) (failures : UInt32) :
    Streak.double p ⟨failures, pauseAfter p n⟩ = ⟨failures, pauseAfter p (n + 1)⟩ := by
  obtain ⟨m, rfl⟩ : ∃ m, n = m + 1 := ⟨n - 1, by omega⟩
  have hpow : p.initialBackoff * 2 ^ (m + 1) = p.initialBackoff * 2 ^ m * 2 := by
    rw [Nat.pow_succ, Nat.mul_assoc]
  simp only [Streak.double, pauseAfter, Nat.add_sub_cancel, hpow]
  congr 1
  omega

/-- **Attempt `k` fails:** the streak that the loop carries along has the right length, and names
the right pause. -/
theorem fail_streakBefore (hp : p.initialBackoff ≤ p.maxBackoff) (k : Nat) :
    (streakBefore p script k).fail p (script k).lasts =
      ⟨.ofNat (streakAt p script k), pauseAfter p (streakAt p script k)⟩ := by
  have hone : (Streak.start p).failures + 1 = UInt32.ofNat 1 := rfl
  cases k with
  | zero =>
    have hpause := pauseAfter_one hp
    unfold streakBefore streakAt Streak.fail
    simp only [ite_self, hpause, hone]
    rfl
  | succ k =>
    unfold Streak.fail
    rw [streakAt]
    split
    · simp only [hone, pauseAfter_one hp]
      rfl
    · simp only [streakBefore, UInt32.ofNat_add]
      rfl

theorem toNat_streakAt {k : Nat} (hmax : p.maxRestarts.toNat < 2 ^ 32 - 1)
    (h : ∀ j < k, Retried p script j) :
    (UInt32.ofNat (streakAt p script k)).toNat = streakAt p script k := by
  have hle := streakAt_le h
  exact UInt32.toNat_ofNat_of_lt' (by rw [UInt32.size]; omega)

/-! ### One attempt -/

/-- **An attempt that another one follows** is reported, and the pause after it has the right
length. -/
theorem finish_retried (name : String) (hp : p.initialBackoff ≤ p.maxBackoff)
    (hmax : p.maxRestarts.toNat < 2 ^ 32 - 1) {k : Nat} (h : ∀ j < k, Retried p script j)
    (hk : Retried p script k) (now : Nat) :
    let s := ((stateAt p name script k).begin now).finish p name (now + (script k).lasts)
      (script k).ending
    s.phase = .pausing (now + (script k).lasts + pauseAfter p (streakAt p script k)) ∧
      s.resume p = stateAt p name script (k + 1) := by
  obtain ⟨hfail, hle⟩ := hk
  obtain ⟨reason, hreason⟩ : ∃ reason, (script k).ending.reason? = some reason := by
    cases he : (script k).ending with
    | completed => exact absurd he hfail
    | failed causes => exact ⟨_, rfl⟩
    | panicked text => cases text <;> exact ⟨_, rfl⟩
  have hnot : ¬ Streak.isExhausted p
      ⟨.ofNat (streakAt p script k), pauseAfter p (streakAt p script k)⟩ = true := by
    simp only [Streak.isExhausted, decide_eq_true_eq, UInt32.lt_iff_toNat_lt,
      toNat_streakAt hmax h]
    omega
  have hevent : restartOf p name script k =
      .restarted name (.ofNat (streakAt p script k)) reason := by
    rw [restartOf, hreason]
    rfl
  intro s
  have hs : s = { phase := .pausing (now + (script k).lasts + pauseAfter p (streakAt p script k))
                  streak := ⟨.ofNat (streakAt p script k), pauseAfter p (streakAt p script k)⟩
                  events := (List.range (k + 1)).map (restartOf p name script) } := by
    simp only [s, stateAt, State.begin, State.finish, hreason, Nat.add_sub_cancel_left,
      fail_streakBefore hp, if_neg hnot, List.range_succ, List.map_append, List.map_cons,
      List.map_nil, hevent]
  rw [hs]
  refine ⟨rfl, ?_⟩
  simp only [State.resume, double_pauseAfter (streakAt_pos k)]
  rfl

/-- **An attempt that no other one follows** ends the loop. -/
theorem finish_last (name : String) (hp : p.initialBackoff ≤ p.maxBackoff)
    (hmax : p.maxRestarts.toNat < 2 ^ 32 - 1) {k : Nat} (h : ∀ j < k, Retried p script j)
    (hk : ¬ Retried p script k) (now : Nat) :
    let s := ((stateAt p name script k).begin now).finish p name (now + (script k).lasts)
      (script k).ending
    s.phase = .done (lastWord name (script k)).1 ∧
      s.events = (List.range k).map (restartOf p name script) ++ (lastWord name (script k)).2 := by
  intro s
  cases hreason : (script k).ending.reason? with
  | none =>
    simp only [s, stateAt, State.begin, State.finish, lastWord, hreason, List.append_nil, and_self]
  | some reason =>
    have hfail : (script k).ending ≠ .completed := by
      intro he
      rw [he] at hreason
      cases hreason
    have hgt : ¬ streakAt p script k ≤ p.maxRestarts.toNat := fun hle => hk ⟨hfail, hle⟩
    have hyes : Streak.isExhausted p
        ⟨.ofNat (streakAt p script k), pauseAfter p (streakAt p script k)⟩ = true := by
      simp only [Streak.isExhausted, decide_eq_true_eq, UInt32.lt_iff_toNat_lt,
        toNat_streakAt hmax h]
      omega
    simp only [s, stateAt, State.begin, State.finish, lastWord, hreason, Nat.add_sub_cancel_left,
      fail_streakBefore hp, if_pos hyes, and_self]

/-! ### A run -/

/-- Attempts `k` and after it, up to so many. -/
def runAt (p : RestartPolicy) (name : String) (script : Nat → Attempt) (fuel k : Nat) : Report :=
  runFrom p name none script fuel k (startAt p script k) ((List.range k).map (startAt p script))
    (stateAt p name script k)

/-- An attempt that another one follows. -/
theorem runAt_retried (hp : p.initialBackoff ≤ p.maxBackoff)
    (hmax : p.maxRestarts.toNat < 2 ^ 32 - 1) (hc : ∀ k, (script k).cancels = false) {k : Nat}
    (h : ∀ j < k, Retried p script j) (hk : Retried p script k) (fuel : Nat) :
    runAt p name script (fuel + 1) k = runAt p name script fuel (k + 1) := by
  obtain ⟨hphase, hresume⟩ := finish_retried name hp hmax h hk (startAt p script k)
  unfold runAt
  rw [runFrom]
  simp only [hc, cancelledBefore, Option.any_none, Bool.false_eq_true, if_false, hphase, hresume]
  rw [List.range_succ, List.map_append]
  rfl

/-- An attempt that no other one follows. -/
theorem runAt_last (hp : p.initialBackoff ≤ p.maxBackoff)
    (hmax : p.maxRestarts.toNat < 2 ^ 32 - 1) (hc : ∀ k, (script k).cancels = false) {k : Nat}
    (h : ∀ j < k, Retried p script j) (hk : ¬ Retried p script k) (fuel : Nat) :
    runAt p name script (fuel + 1) k =
      { outcome := some (lastWord name (script k)).1
        starts := (List.range (k + 1)).map (startAt p script)
        finished := startAt p script k + (script k).lasts
        events := (List.range k).map (restartOf p name script) ++
          (lastWord name (script k)).2 } := by
  obtain ⟨hphase, hevents⟩ := finish_last name hp hmax h hk (startAt p script k)
  unfold runAt
  rw [runFrom]
  simp only [hc, cancelledBefore, Option.any_none, Bool.false_eq_true, if_false, hphase, hevents]
  rw [List.range_succ, List.map_append]
  rfl

/-- Attempts that others follow, one after another. -/
theorem runAt_of_retried (hp : p.initialBackoff ≤ p.maxBackoff)
    (hmax : p.maxRestarts.toNat < 2 ^ 32 - 1) (hc : ∀ k, (script k).cancels = false) {n : Nat}
    (h : ∀ k < n, Retried p script k) (fuel : Nat) :
    runAt p name script (n + fuel) 0 = runAt p name script fuel n := by
  induction n generalizing fuel with
  | zero => rw [Nat.zero_add]
  | succ n ih =>
    have hn : ∀ k < n, Retried p script k := fun k hk => h k (Nat.lt_succ_of_lt hk)
    rw [Nat.add_assoc, Nat.add_comm 1 fuel, ih hn,
      runAt_retried hp hmax hc hn (h n (Nat.lt_succ_self n))]

theorem cancels_scripted {attempts : List Attempt} (h : ∀ a ∈ attempts, a.cancels = false)
    (k : Nat) : (scripted attempts k).cancels = false := by
  unfold scripted
  rw [List.getD_eq_getElem?_getD]
  cases he : attempts[min k (attempts.length - 1)]? with
  | none => rfl
  | some a => exact h a (List.mem_of_getElem? he)

theorem initialBackoff_le (s : Config.SupervisorSection) :
    (RestartPolicy.ofSection s).initialBackoff ≤ (RestartPolicy.ofSection s).maxBackoff :=
  Nat.le_max_right _ _

/-- **What a run does** that nobody cancels, of any number of attempts. As long as another attempt
follows each one, the attempts start at the moments of the schedule, and each is reported once. With
the first attempt that no other one follows the run ends: completed and without a word if that
attempt completed, else exhausted, which is reported last. The numbers that are reported are the
true ones. -/
theorem restart_schedule (s : Config.SupervisorSection) (hmax : s.maxRestarts.toNat < 2 ^ 32 - 1)
    (name : String) (script : Nat → Attempt) (hc : ∀ k, (script k).cancels = false) (fuel : Nat) :
    let p := RestartPolicy.ofSection s
    let r := runFrom p name none script fuel 0 0 [] (.fresh p)
    ((∀ k < fuel, Retried p script k) →
      r = { outcome := none
            starts := (List.range fuel).map (startAt p script)
            finished := startAt p script fuel
            events := (List.range fuel).map (restartOf p name script) }) ∧
    (∀ m < fuel, (∀ k < m, Retried p script k) → ¬ Retried p script m →
      r = { outcome := some (lastWord name (script m)).1
            starts := (List.range (m + 1)).map (startAt p script)
            finished := startAt p script m + (script m).lasts
            events := (List.range m).map (restartOf p name script) ++
              (lastWord name (script m)).2 }) ∧
    ∀ k, (∀ j < k, Retried p script j) →
      (UInt32.ofNat (streakAt p script k)).toNat = streakAt p script k := by
  intro p r
  have hp : p.initialBackoff ≤ p.maxBackoff := initialBackoff_le s
  have hr : r = runAt p name script fuel 0 := rfl
  refine ⟨fun hall => ?_, fun m hm hall hlast => ?_, fun k hall => toNat_streakAt hmax hall⟩
  · rw [hr, ← Nat.add_zero fuel, runAt_of_retried hp hmax hc hall]
    rfl
  · obtain ⟨more, hmore⟩ : ∃ more, fuel = m + (more + 1) := ⟨fuel - m - 1, by omega⟩
    rw [hr, hmore, runAt_of_retried hp hmax hc hall]
    exact runAt_last hp hmax hc hall hlast more

/-- Two short failures, a long one that makes them forgotten, and short ones until the end. -/
theorem restart_schedule_mixed :
    let s : Config.SupervisorSection :=
      { initialBackoff := 100, maxBackoff := 150, maxRestarts := 2, stableAfter := 1 }
    let short : Attempt := { ending := .failed ["lost"] }
    let long : Attempt := { lasts := 2000, ending := .panicked none }
    let script := scripted [short, short, long, short]
    s.maxRestarts.toNat < 2 ^ 32 - 1 ∧ (∀ k, (script k).cancels = false) ∧
      runFrom (.ofSection s) "loop" none script 9 0 0 [] (.fresh (.ofSection s)) =
        { outcome := some .exhausted
          starts := [0, 100, 250, 2350, 2500]
          finished := 2500
          events := [.restarted "loop" 1 "lost", .restarted "loop" 2 "lost",
            .restarted "loop" 1 "panic: non-string panic payload", .restarted "loop" 2 "lost",
            .fatal "loop" "lost"] } := by
  intro s short long script
  have hmax : s.maxRestarts.toNat < 2 ^ 32 - 1 := by decide
  have hc : ∀ k, (script k).cancels = false := cancels_scripted (by decide)
  refine ⟨hmax, hc, ?_⟩
  obtain ⟨-, hends, -⟩ := restart_schedule s hmax "loop" script hc 9
  exact (hends 4 (by decide) (by decide) (by decide)).trans (by decide)

/-! ### A list of attempts -/

/-- Among so many attempts, another one follows each, or there is a first that no other follows. -/
theorem retried_or_first (p : RestartPolicy) (script : Nat → Attempt) (n : Nat) :
    (∀ k < n, Retried p script k) ∨
      ∃ m < n, (∀ k < m, Retried p script k) ∧ ¬ Retried p script m := by
  induction n with
  | zero => exact .inl fun k hk => absurd hk (Nat.not_lt_zero k)
  | succ n ih =>
    rcases ih with hall | ⟨m, hm, hfirst⟩
    · by_cases hn : Retried p script n
      · left
        intro k hk
        rcases Nat.lt_succ_iff_lt_or_eq.mp hk with hk | rfl
        · exact hall k hk
        · exact hn
      · exact .inr ⟨n, Nat.lt_succ_self n, hall, hn⟩
    · exact .inr ⟨m, Nat.lt_succ_of_lt hm, hfirst⟩

/-- After the last attempt of a list, all are the last one. -/
theorem scripted_after (attempts : List Attempt) (j : Nat) :
    scripted attempts (attempts.length - 1 + j + 1) = scripted attempts (attempts.length - 1) := by
  simp only [scripted, Nat.min_self]
  rw [Nat.min_eq_right (by omega)]

/-- **A run on a list of attempts is cut off** only if it goes on for ever, the last attempt being
made again and again: the bound on the attempts is none on a run that ends. -/
theorem run_outcome_eq_none_iff (hp : p.initialBackoff ≤ p.maxBackoff)
    (hmax : p.maxRestarts.toNat < 2 ^ 32 - 1) {attempts : List Attempt}
    (hc : ∀ a ∈ attempts, a.cancels = false) :
    (run p name false none attempts).outcome = none ↔ ∀ k, Retried p (scripted attempts) k := by
  have hrun : run p name false none attempts = runAt p name (scripted attempts)
      (attempts.length + p.maxRestarts.toNat + 2 + 0) 0 := rfl
  have hcs := cancels_scripted hc
  rw [hrun]
  constructor
  · intro hnone
    rcases retried_or_first p (scripted attempts)
        (attempts.length + p.maxRestarts.toNat + 2) with hall | ⟨m, hm, hbefore, hlast⟩
    · -- the last attempt fails; were it short, the streak would be too long by now
      have hfails := (hall (attempts.length - 1) (by omega)).1
      have hmore := (hall 0 (by omega)).2
      have hlong : p.stableAfter ≤ (scripted attempts (attempts.length - 1)).lasts := by
        refine Decidable.byContradiction fun hshort => ?_
        have hgrows : ∀ j, j + 1 ≤ streakAt p (scripted attempts) (attempts.length - 1 + j) := by
          intro j
          induction j with
          | zero => exact streakAt_pos _
          | succ j ih =>
            rw [← Nat.add_assoc, streakAt, scripted_after, if_neg hshort]
            omega
        have htoo := hgrows p.maxRestarts.toNat
        have hle := (hall (attempts.length - 1 + p.maxRestarts.toNat) (by omega)).2
        omega
      intro k
      rcases Nat.lt_or_ge k (attempts.length + 1) with hk | hk
      · exact hall k (by omega)
      · obtain ⟨j, rfl⟩ : ∃ j, k = attempts.length - 1 + j + 1 :=
          ⟨k - 1 - (attempts.length - 1), by omega⟩
        refine ⟨?_, ?_⟩
        · rw [scripted_after]
          exact hfails
        · rw [streakAt, scripted_after, if_pos hlong]
          exact hmore
    · obtain ⟨more, he⟩ : ∃ more,
          attempts.length + p.maxRestarts.toNat + 2 + 0 = m + (more + 1) :=
        ⟨attempts.length + p.maxRestarts.toNat + 2 - m - 1, by omega⟩
      rw [he, runAt_of_retried hp hmax hcs hbefore, runAt_last hp hmax hcs hbefore hlast] at hnone
      cases hnone
  · intro hall
    rw [runAt_of_retried hp hmax hcs fun k _ => hall k]
    rfl

end PaneRelay.Supervisor
