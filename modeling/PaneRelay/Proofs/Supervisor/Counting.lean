import Mathlib.Data.List.GetD
import PaneRelay.Proofs.Supervisor.Cancellation
import PaneRelay.Proofs.Supervisor.Schedule

/-! # How far failures are counted

A supervised loop counts its failures in a row in a word of 32 bits, and allows a number of restarts
that may be any such word. The count is one ahead of the restarts when the loop gives up. So it is
right to the end unless every word of 32 bits is a number of restarts that are allowed: then the loop
never gives up, and a loop that keeps failing soon enough is back at zero after 2³² failures.

The pause is no longer than the longest one at any time, whatever the loop goes through.

* `Watch.tallies`: the true numbers of the failures, and `numbers`, those that are reported.
* `Streak.Exact`: whether one failure more can be counted.
* `Tally.step`, `Tally.played`: what is counted is right.
* `exists_full`: the run on which it is not.
* `counted_iff`: when it is right on every run.
* `played_backoff_le`: pauses. -/

namespace PaneRelay.Supervisor

variable {p : RestartPolicy} {name : String} {script : Nat → Attempt} {w v : Watch} {s : State}

/-! ### True numbers -/

/-- Failures in a row before attempt `k`. -/
def streakTo (p : RestartPolicy) (script : Nat → Attempt) : Nat → Nat
  | 0 => 0
  | k + 1 => streakAt p script k

theorem streakAt_eq (k : Nat) : streakAt p script k =
    (if p.stableAfter ≤ (script k).lasts then 0 else streakTo p script k) + 1 := by
  cases k with
  | zero => rw [streakAt, streakTo, ite_self]
  | succ k =>
    rw [streakAt, streakTo]
    split <;> rfl

/-- Attempts to come do not count. -/
theorem streakAt_congr {script' : Nat → Attempt} {k : Nat} (h : ∀ j ≤ k, script j = script' j) :
    streakAt p script k = streakAt p script' k := by
  induction k with
  | zero => rfl
  | succ k ih =>
    rw [streakAt, streakAt, h (k + 1) (Nat.le_refl _), ih fun j hj => h j (Nat.le_succ_of_le hj)]

/-- The attempts that have ended, by their numbers. -/
def Watch.past (w : Watch) (k : Nat) : Attempt := w.ended.getD k {}

/-- Failures in a row so far. -/
def Watch.count (p : RestartPolicy) (w : Watch) : Nat := streakTo p w.past w.ended.length

/-- **The true numbers** of the attempts that have ended: how many failures in a row each one is the
last of, if all of them failed. -/
def Watch.tallies (p : RestartPolicy) (w : Watch) : List Nat :=
  (List.range w.ended.length).map (streakAt p w.past)

/-- One more attempt has ended. -/
theorem tallies_append {a : Attempt} (h : v.ended = w.ended ++ [a]) :
    v.count p = (if p.stableAfter ≤ a.lasts then 0 else w.count p) + 1 ∧
      v.tallies p = w.tallies p ++ [v.count p] := by
  have hlength : v.ended.length = w.ended.length + 1 := by rw [h, List.length_append]; rfl
  have hold : ∀ j < w.ended.length, v.past j = w.past j := fun j hj => by
    unfold Watch.past
    rw [h, List.getD_append _ _ _ _ hj]
  have hnew : v.past w.ended.length = a := by
    unfold Watch.past
    rw [h, List.getD_append_right _ _ _ _ (Nat.le_refl _), Nat.sub_self]
    rfl
  have hto : streakTo p v.past w.ended.length = w.count p := by
    unfold Watch.count
    cases hk : w.ended.length with
    | zero => rfl
    | succ k => exact streakAt_congr fun j hj => hold j (by omega)
  have hcount : v.count p = streakAt p v.past w.ended.length := by
    unfold Watch.count
    rw [hlength]
    rfl
  constructor
  · rw [hcount, streakAt_eq, hnew, hto]
  · unfold Watch.tallies
    rw [hlength, List.range_succ, List.map_append, hcount, List.map_singleton]
    congr 1
    exact List.map_congr_left fun k hk =>
      streakAt_congr fun j hj => hold j (by have := List.mem_range.mp hk; omega)

theorem pos_of_mem_tallies {n : Nat} (h : n ∈ w.tallies p) : 0 < n := by
  obtain ⟨k, -, rfl⟩ := List.mem_map.mp h
  exact streakAt_pos k

/-! ### What is reported -/

/-- The number of a failure, if it was reported together with a restart. -/
def Event.number? : Event → Option Nat
  | .restarted _ attempt _ => some attempt.toNat
  | .fatal .. => none

/-- **The numbers that are reported** with restarts. -/
def numbers (events : List Event) : List Nat := events.filterMap Event.number?

theorem numbers_append (es fs : List Event) : numbers (es ++ fs) = numbers es ++ numbers fs :=
  List.filterMap_append

/-! ### One failure more -/

/-- **Whether one failure more can be counted**, however long the attempt has lasted. -/
def Streak.Exact (p : RestartPolicy) (s : Streak) : Prop :=
  ∀ lasted, (s.fail p lasted).failures.toNat =
    (if p.stableAfter ≤ lasted then 0 else s.failures.toNat) + 1

theorem Streak.exact_iff {s : Streak} :
    s.Exact p ↔ s.failures.toNat < 2 ^ 32 - 1 ∨ p.stableAfter = 0 := by
  have hfail : ∀ lasted, (s.fail p lasted).failures.toNat =
      ((if p.stableAfter ≤ lasted then 0 else s.failures.toNat) + 1) % 2 ^ 32 := by
    intro lasted
    unfold Streak.fail
    split
    · rfl
    · exact UInt32.toNat_add _ _
  have hlt : s.failures.toNat < 2 ^ 32 := s.failures.toNat_lt
  constructor
  · intro h
    have hzero := (hfail 0).symm.trans (h 0)
    split at hzero <;> omega
  · intro h lasted
    rw [hfail]
    split <;> omega

/-- The running attempt fails, and there are restarts left. -/
theorem finish_left {since now : Nat} (hs : s.phase = .running since) {e : Ending} {reason : String}
    (he : e.reason? = some reason)
    (hleft : ¬ p.maxRestarts < (s.streak.fail p (now - since)).failures) :
    s.finish p name now e =
      { phase := .pausing (now + (s.streak.fail p (now - since)).backoff)
        streak := s.streak.fail p (now - since)
        events := s.events ++
          [.restarted name (s.streak.fail p (now - since)).failures reason] } := by
  have hno : ¬ (s.streak.fail p (now - since)).isExhausted p = true := by
    rw [Streak.isExhausted, decide_eq_true_eq]
    exact hleft
  simp only [State.finish, hs, he]
  exact if_neg hno

/-- The running attempt fails, and there are no restarts left. -/
theorem finish_exhausted {since now : Nat} (hs : s.phase = .running since) {e : Ending}
    {reason : String} (he : e.reason? = some reason)
    (hnone : p.maxRestarts < (s.streak.fail p (now - since)).failures) :
    s.finish p name now e =
      { phase := .done .exhausted
        streak := s.streak.fail p (now - since)
        events := s.events ++ [.fatal name reason] } := by
  have hyes : (s.streak.fail p (now - since)).isExhausted p = true := by
    rw [Streak.isExhausted, decide_eq_true_eq]
    exact hnone
  simp only [State.finish, hs, he]
  exact if_pos hyes

/-- **What a loop has counted** so far, and that it is right. As long as the loop is not over, it was
told about each attempt that has ended. -/
structure Tally (p : RestartPolicy) (w : Watch) : Prop where
  reported : numbers w.loop.events <+: w.tallies p
  live : w.isOver = false → numbers w.loop.events = w.tallies p ∧
    w.loop.streak.failures.toNat = w.count p ∧
    w.loop.streak.failures.toNat ≤ p.maxRestarts.toNat

namespace Tally

theorem fresh (p : RestartPolicy) : Tally p (.fresh p) where
  reported := List.prefix_rfl
  live _ := ⟨rfl, rfl, Nat.zero_le _⟩

/-- A move with which no attempt ends. -/
theorem same (t : Tally p w) (ho : w.isOver = false) (hended : v.ended = w.ended)
    (hevents : v.loop.events = w.loop.events)
    (hfailures : v.loop.streak.failures = w.loop.streak.failures) : Tally p v := by
  have hlive := t.live ho
  unfold Watch.tallies Watch.count Watch.past at hlive
  rw [← hended, ← hevents, ← hfailures] at hlive
  exact ⟨hlive.1 ▸ List.prefix_rfl, fun _ => hlive⟩

/-- An attempt ends, and with it the loop. -/
theorem closes (t : Tally p w) {a : Attempt} (hended : v.ended = w.ended ++ [a])
    (hevents : numbers v.loop.events = numbers w.loop.events) (ho : v.isOver = true) :
    Tally p v := by
  refine ⟨?_, fun h => absurd (h.symm.trans ho) Bool.false_ne_true⟩
  rw [hevents, (tallies_append hended).2]
  exact t.reported.trans (List.prefix_append _ _)

/-- An attempt fails, and there are restarts left. -/
theorem left (t : Tally p w) (hp : w.loop.streak.failures.toNat < 2 ^ 32 - 1 ∨ p.stableAfter = 0)
    (ho : w.isOver = false) {a : Attempt} {reason : String} (hended : v.ended = w.ended ++ [a])
    (hstreak : v.loop.streak = w.loop.streak.fail p a.lasts)
    (hevents : v.loop.events = w.loop.events ++ [.restarted name v.loop.streak.failures reason])
    (hleft : ¬ p.maxRestarts < v.loop.streak.failures) : Tally p v := by
  obtain ⟨hnumbers, hcount, -⟩ := t.live ho
  obtain ⟨hnext, htallies⟩ := tallies_append (p := p) hended
  have hexact : v.loop.streak.failures.toNat = v.count p := by
    rw [hstreak, Streak.exact_iff.mpr hp, hnext, hcount]
  have hreported : numbers v.loop.events = v.tallies p := by
    rw [hevents, numbers_append, hnumbers, htallies, ← hexact]
    rfl
  exact ⟨hreported ▸ List.prefix_rfl, fun _ => ⟨hreported, hexact, UInt32.not_lt.mp hleft⟩⟩

/-- **What a move counts** is right, if all of the restarts can be counted, or none has to be. -/
theorem step (hp : p.maxRestarts.toNat < 2 ^ 32 - 1 ∨ p.stableAfter = 0) {m : Move}
    (t : Tally p w) (h : w.step? p name m = some v) : Tally p v := by
  cases hm : m.isLoop with
  | false =>
    cases m with
    | fire =>
      cases h
      exact ⟨t.reported, t.live⟩
    | _ => cases hm
  | true =>
    obtain ⟨now, -, hq, -, rfl⟩ | ⟨now, e, since, -, hq, -, rfl⟩ | ⟨now, ends, -, hq, -, -, rfl⟩ |
      ⟨-, -, ho, rfl⟩ := step?_cases h hm
    · have ho : w.isOver = false := by simp [Watch.isOver, hq]
      split
      · rw [cancel_of_not_over ho]
        exact t.same ho rfl rfl rfl
      · rw [begin_of_ready hq]
        exact t.same ho rfl rfl rfl
    · have ho : w.isOver = false := by simp [Watch.isOver, hq]
      obtain ⟨-, -, hle⟩ := t.live ho
      split
      · rw [cancel_of_not_over ho]
        exact t.closes rfl rfl rfl
      cases hreason : e.reason? with
      | none =>
        have hfinish : w.loop.finish p name now e = { w.loop with phase := .done .completed } := by
          simp only [State.finish, hq, hreason]
        rw [hfinish]
        exact t.closes rfl rfl rfl
      | some reason =>
        by_cases hleft : p.maxRestarts < (w.loop.streak.fail p (now - since)).failures
        · rw [finish_exhausted hq hreason hleft]
          exact t.closes rfl ((numbers_append _ _).trans (List.append_nil _)) rfl
        · rw [finish_left hq hreason hleft]
          exact t.left (hp.imp_left fun hlt => Nat.lt_of_le_of_lt hle hlt) ho rfl rfl rfl hleft
    · rw [resume_of_pausing hq]
      exact t.same (by simp [Watch.isOver, hq]) rfl rfl rfl
    · rw [cancel_of_not_over ho]
      exact t.same ho rfl rfl rfl

/-- **What any number of moves count** is right. -/
theorem played (hp : p.maxRestarts.toNat < 2 ^ 32 - 1 ∨ p.stableAfter = 0) {moves : List Move}
    (t : Tally p w) (h : w.played p name moves = some v) : Tally p v := by
  induction moves generalizing w with
  | nil =>
    cases h
    exact t
  | cons m moves ih =>
    obtain ⟨u, hm, hu⟩ := played_cons.mp h
    exact ih (t.step hp hm) hu

end Tally

/-! ### The run on which it is not -/

theorem played_append {moves more : List Move} {u : Watch} (h : w.played p name moves = some u)
    (h' : u.played p name more = some v) : w.played p name (moves ++ more) = some v := by
  induction moves generalizing w with
  | nil =>
    cases h
    exact h'
  | cons m moves ih =>
    obtain ⟨x, hm, hx⟩ := played_cons.mp h
    exact played_cons.mpr ⟨x, hm, ih hx⟩

/-- A loop that may start an attempt, after so many failures in a row. -/
structure Ready (w : Watch) (n : Nat) : Prop where
  phase : w.loop.phase = .ready
  fired : w.fired = false
  failures : w.loop.streak.failures = .ofNat n

/-- **An attempt that fails at once**, which is not too much. -/
theorem Ready.fails (hs : p.stableAfter ≠ 0) (name : String) {n : Nat} (r : Ready w n)
    (hn : ¬ p.maxRestarts < .ofNat (n + 1)) :
    ∃ moves v, w.played p name moves = some v ∧ Ready v (n + 1) ∧
      UInt32.toNat (.ofNat (n + 1)) ∈ numbers v.loop.events := by
  obtain ⟨x, hattempt, hfx, hnx, -, hlx⟩ := exists_attempt p name r.phase r.fired (Nat.le_refl w.now)
  have hpx : x.loop.phase = .running w.now := by rw [hlx]
  obtain ⟨y, hending, hfy, hny, -, hly⟩ :=
    exists_ending p name hpx hfx (Nat.le_of_eq hnx) (.failed [])
  have hshort : ¬ p.stableAfter ≤ 0 := by omega
  have hfail : w.loop.streak.fail p 0 = ⟨.ofNat (n + 1), w.loop.streak.backoff⟩ := by
    rw [Streak.fail, if_neg hshort, r.failures, UInt32.ofNat_add]
    rfl
  have hleft : ¬ p.maxRestarts < (x.loop.streak.fail p (w.now - w.now)).failures := by
    rw [hlx, Nat.sub_self, hfail]
    exact hn
  rw [finish_left hpx rfl hleft, hlx, Nat.sub_self, hfail] at hly
  have hpy : y.loop.phase = .pausing (w.now + w.loop.streak.backoff) := by rw [hly]
  obtain ⟨z, hwake, hfz, -, -, hlz⟩ := exists_wake p name hpy hfy (by omega)
  rw [resume_of_pausing hpy, hly] at hlz
  refine ⟨[.attempt w.now, .ending w.now (.failed []), .wake (w.now + w.loop.streak.backoff)], z,
    played_cons.mpr ⟨x, hattempt, played_cons.mpr ⟨y, hending, played_cons.mpr ⟨z, hwake, rfl⟩⟩⟩,
    ⟨by rw [hlz], hfz, by rw [hlz]; rfl⟩, ?_⟩
  rw [hlz, numbers_append]
  exact List.mem_append_right _ List.mem_cons_self

/-- **Attempts that fail at once**, which are not too many. -/
theorem Ready.fails_all (hs : p.stableAfter ≠ 0) (name : String) {n : Nat}
    (hn : n ≤ p.maxRestarts.toNat) :
    ∃ moves w, (Watch.fresh p).played p name moves = some w ∧ Ready w n := by
  induction n with
  | zero => exact ⟨[], .fresh p, rfl, rfl, rfl, rfl⟩
  | succ n ih =>
    obtain ⟨moves, w, hw, r⟩ := ih (Nat.le_of_succ_le hn)
    obtain ⟨more, v, hv, r', -⟩ := r.fails hs name (by
      have := p.maxRestarts.toNat_lt
      rw [UInt32.lt_iff_toNat_lt, UInt32.toNat_ofNat_of_lt' (by rw [UInt32.size]; omega)]
      omega)
    exact ⟨moves ++ more, v, played_append hw hv, r'⟩

/-- **The count of failures comes to its end** if all words are numbers of restarts that are allowed:
an attempt fails, and its number is 0. -/
theorem exists_full (hmax : 2 ^ 32 - 1 ≤ p.maxRestarts.toNat) (hs : p.stableAfter ≠ 0)
    (name : String) :
    (∃ moves w, (Watch.fresh p).played p name moves = some w ∧
      (∃ since, w.loop.phase = .running since) ∧ w.loop.streak.failures.toNat = 2 ^ 32 - 1) ∧
    ∃ moves w, (Watch.fresh p).played p name moves = some w ∧ 0 ∈ numbers w.loop.events := by
  obtain ⟨moves, w, hw, r⟩ := Ready.fails_all hs name hmax
  constructor
  · obtain ⟨x, hattempt, -, -, -, hlx⟩ := exists_attempt p name r.phase r.fired (Nat.le_refl w.now)
    refine ⟨moves ++ [.attempt w.now], x, played_append hw (played_cons.mpr ⟨x, hattempt, rfl⟩),
      ⟨w.now, by rw [hlx]⟩, ?_⟩
    rw [hlx]
    exact congrArg UInt32.toNat r.failures
  · obtain ⟨more, v, hv, -, hzero⟩ := r.fails hs name (UInt32.not_lt.mpr (UInt32.zero_le))
    exact ⟨moves ++ more, v, played_append hw hv, hzero⟩

/-! ### The laws -/

/-- **Failures are counted right** on every run, and their numbers are reported right, just if there
is a word that is no number of restarts allowed, or every failure counts alone. As long as the loop
is not over, all of them are reported. -/
theorem counted_iff (p : RestartPolicy) (name : String) :
    ((∀ moves w, (Watch.fresh p).played p name moves = some w →
        ∀ since, w.loop.phase = .running since → w.loop.streak.Exact p) ↔
      p.maxRestarts.toNat < 2 ^ 32 - 1 ∨ p.stableAfter = 0) ∧
    ((∀ moves w, (Watch.fresh p).played p name moves = some w →
        numbers w.loop.events <+: w.tallies p ∧
          (w.isOver = false → numbers w.loop.events = w.tallies p)) ↔
      p.maxRestarts.toNat < 2 ^ 32 - 1 ∨ p.stableAfter = 0) := by
  have hfull : ¬ (p.maxRestarts.toNat < 2 ^ 32 - 1 ∨ p.stableAfter = 0) →
      2 ^ 32 - 1 ≤ p.maxRestarts.toNat ∧ p.stableAfter ≠ 0 := fun h => by omega
  refine ⟨⟨fun h => Decidable.byContradiction fun hno => ?_, fun hp moves w hw since hq => ?_⟩,
    ⟨fun h => Decidable.byContradiction fun hno => ?_, fun hp moves w hw => ?_⟩⟩
  · obtain ⟨hmax, hs⟩ := hfull hno
    obtain ⟨⟨moves, w, hw, ⟨since, hq⟩, hcount⟩, -⟩ := exists_full hmax hs name
    have hexact := Streak.exact_iff.mp (h moves w hw since hq)
    omega
  · have t := (Tally.fresh p).played hp hw
    obtain ⟨-, -, hle⟩ := t.live (by simp [Watch.isOver, hq])
    exact Streak.exact_iff.mpr (hp.imp_left fun hlt => Nat.lt_of_le_of_lt hle hlt)
  · obtain ⟨hmax, hs⟩ := hfull hno
    obtain ⟨-, moves, w, hw, hzero⟩ := exists_full hmax hs name
    exact Nat.lt_irrefl 0 (pos_of_mem_tallies ((h moves w hw).1.subset hzero))
  · have t := (Tally.fresh p).played hp hw
    exact ⟨t.reported, fun ho => (t.live ho).1⟩

/-! ### Pauses -/

theorem fail_backoff_le (hp : p.initialBackoff ≤ p.maxBackoff) {s : Streak}
    (h : s.backoff ≤ p.maxBackoff) (lasted : Nat) : (s.fail p lasted).backoff ≤ p.maxBackoff := by
  unfold Streak.fail
  split
  · exact hp
  · exact h

/-- **Pauses stay within their limit** as an attempt ends. -/
theorem finish_backoff_le (hp : p.initialBackoff ≤ p.maxBackoff)
    (h : s.streak.backoff ≤ p.maxBackoff) (name : String) (now : Nat) (e : Ending) :
    (s.finish p name now e).streak.backoff ≤ p.maxBackoff := by
  unfold State.finish
  split
  · exact h
  · dsimp only
    split
    · exact fail_backoff_le hp h _
    · exact fail_backoff_le hp h _
  · exact h

/-- **Pauses stay within their limit** as one is over. -/
theorem resume_backoff_le (h : s.streak.backoff ≤ p.maxBackoff) :
    (s.resume p).streak.backoff ≤ p.maxBackoff := by
  unfold State.resume
  split
  · exact Nat.min_le_right _ _
  · exact h

@[simp] theorem begin_streak (s : State) (now : Nat) : (s.begin now).streak = s.streak := by
  unfold State.begin
  split <;> rfl

@[simp] theorem cancel_streak (s : State) : s.cancel.streak = s.streak := by
  unfold State.cancel
  split <;> rfl

theorem step?_backoff_le (hp : p.initialBackoff ≤ p.maxBackoff) {m : Move}
    (hw : w.loop.streak.backoff ≤ p.maxBackoff) (h : w.step? p name m = some v) :
    v.loop.streak.backoff ≤ p.maxBackoff := by
  cases hm : m.isLoop with
  | false =>
    cases m with
    | fire =>
      cases h
      exact hw
    | _ => cases hm
  | true =>
    obtain ⟨now, -, -, -, rfl⟩ | ⟨now, e, since, -, -, -, rfl⟩ | ⟨now, ends, -, -, -, -, rfl⟩ |
      ⟨-, -, -, rfl⟩ := step?_cases h hm
    · split <;> simpa
    · split
      · simpa
      · exact finish_backoff_le hp hw name now e
    · exact resume_backoff_le hw
    · simpa

/-- **Pauses stay within their limit**, whatever the loop goes through. -/
theorem played_backoff_le (hp : p.initialBackoff ≤ p.maxBackoff) {moves : List Move}
    (hw : w.loop.streak.backoff ≤ p.maxBackoff) (h : w.played p name moves = some v) :
    v.loop.streak.backoff ≤ p.maxBackoff := by
  induction moves generalizing w with
  | nil =>
    cases h
    exact hw
  | cons m moves ih =>
    obtain ⟨u, hm, hu⟩ := played_cons.mp h
    exact ih (step?_backoff_le hp hw hm) hu

end PaneRelay.Supervisor
