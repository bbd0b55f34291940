import PaneRelay.Supervisor

/-! # Cancellation is final

The token of a supervised loop may fire at any moment: before the first attempt, while one runs, at
the moment at which it ends, during a pause, or as the pause is over. Where the loop waits it waits
for two things, the token being one of them, and once both have come it may see either. So it looks
at the token again whenever it has seen the other one.

* `Watch`, `Move`, `Watch.step?`: a loop with its token, and what may happen next.
* `Watch.played`: any number of moves, in an order that is open.
* `Fated.step`: what a move does once the token has fired.
* `OnCourse.step`: what the loop has done before is what an uncancelled run does.
* `cancellation_final`: what both come to.
* `exists_played`: the run on a clock is one order of moves. -/

namespace PaneRelay.Supervisor

/-! ### Loops and their tokens -/

/-- **A supervised loop with its token.** -/
structure Watch where
  /-- The loop. -/
  loop : State
  /-- Whether the token has fired. -/
  fired : Bool := false
  /-- The present moment. -/
  now : Nat := 0
  /-- When attempts were started. -/
  starts : List Nat := []
  /-- The attempts that have ended, oldest first. -/
  ended : List Attempt := []
deriving DecidableEq, Repr

/-- **What may happen next.** Between two moves of the loop it waits. -/
inductive Move where
  /-- The token fires. -/
  | fire
  /-- The loop goes on to its next attempt. -/
  | attempt (now : Nat)
  /-- The loop sees that the running attempt has ended. -/
  | ending (now : Nat) (e : Ending)
  /-- The loop sees that the pause is over. -/
  | wake (now : Nat)
  /-- The loop sees that the token has fired. -/
  | heed
deriving DecidableEq, Repr

/-- Whether a move is one of the loop. -/
def Move.isLoop : Move → Bool
  | .fire => false
  | _ => true

namespace Watch

/-- A loop that was not started yet. -/
def fresh (p : RestartPolicy) : Watch := { loop := .fresh p }

/-- **A move**, if it can be made: nothing is seen before it has come, and no moment lies before
another one that is past. Before an attempt, and after it, the loop looks at its token. -/
def step? (p : RestartPolicy) (name : String) (w : Watch) : Move → Option Watch
  | .fire => some { w with fired := true }
  | .attempt now =>
    match w.loop.phase with
    | .ready =>
      if now < w.now then none
      else if w.fired then some { w with now, loop := w.loop.cancel }
      else some { w with now, loop := w.loop.begin now, starts := w.starts ++ [now] }
    | _ => none
  | .ending now e =>
    match w.loop.phase with
    | .running since =>
      if now < w.now then none
      else
        let ended := w.ended ++ [{ lasts := now - since, ending := e }]
        if w.fired then some { w with now, ended, loop := w.loop.cancel }
        else some { w with now, ended, loop := w.loop.finish p name now e }
    | _ => none
  | .wake now =>
    match w.loop.phase with
    | .pausing ends =>
      if now < w.now ∨ now < ends then none else some { w with now, loop := w.loop.resume p }
    | _ => none
  | .heed =>
    match w.loop.phase with
    | .running _ | .pausing _ => if w.fired then some { w with loop := w.loop.cancel } else none
    | _ => none

/-- **Any number of moves**, each of which can be made. -/
def played (p : RestartPolicy) (name : String) (w : Watch) : List Move → Option Watch
  | [] => some w
  | m :: moves => (w.step? p name m).bind fun w => w.played p name moves

/-- Whether the loop is over. -/
def isOver (w : Watch) : Bool :=
  match w.loop.phase with
  | .done _ => true
  | _ => false

end Watch

variable {p : RestartPolicy} {name : String} {w v : Watch}

theorem begin_of_ready {s : State} (hs : s.phase = .ready) (now : Nat) :
    s.begin now = { s with phase := .running now } := by
  unfold State.begin
  rw [hs]

theorem resume_of_pausing {s : State} {ends : Nat} (hs : s.phase = .pausing ends) :
    s.resume p = { s with phase := .ready, streak := s.streak.double p } := by
  unfold State.resume
  rw [hs]

theorem resume_of_done {s : State} {o : Outcome} (hs : s.phase = .done o) : s.resume p = s := by
  unfold State.resume
  rw [hs]

theorem phase_ne_done (h : w.isOver = false) (o : Outcome) : w.loop.phase ≠ .done o := by
  intro hp
  simp [Watch.isOver, hp] at h

theorem played_cons {m : Move} {moves : List Move} :
    w.played p name (m :: moves) = some v ↔
      ∃ u, w.step? p name m = some u ∧ u.played p name moves = some v :=
  Option.bind_eq_some_iff

/-- **All that a move of the loop can be.** -/
theorem step?_cases {m : Move} (h : w.step? p name m = some v) (hm : m.isLoop = true) :
    (∃ now, m = .attempt now ∧ w.loop.phase = .ready ∧ w.now ≤ now ∧
      v = if w.fired then { w with now, loop := w.loop.cancel }
        else { w with now, loop := w.loop.begin now, starts := w.starts ++ [now] }) ∨
    (∃ now e since, m = .ending now e ∧ w.loop.phase = .running since ∧ w.now ≤ now ∧
      v = { w with now, ended := w.ended ++ [{ lasts := now - since, ending := e }]
                   loop := if w.fired then w.loop.cancel else w.loop.finish p name now e }) ∨
    (∃ now ends, m = .wake now ∧ w.loop.phase = .pausing ends ∧ w.now ≤ now ∧ ends ≤ now ∧
      v = { w with now, loop := w.loop.resume p }) ∨
    (m = .heed ∧ w.fired = true ∧ w.isOver = false ∧ v = { w with loop := w.loop.cancel }) := by
  cases m with
  | fire => cases hm
  | attempt now =>
    left
    cases hp : w.loop.phase with
    | ready =>
      simp only [Watch.step?, hp, Option.ite_none_left_eq_some] at h
      obtain ⟨hnow, h⟩ := h
      refine ⟨now, rfl, rfl, by omega, ?_⟩
      split at h
      · next hf => rw [if_pos hf, Option.some.inj h]
      · next hf => rw [if_neg hf, Option.some.inj h]
    | _ => simp [Watch.step?, hp] at h
  | ending now e =>
    right; left
    cases hp : w.loop.phase with
    | running since =>
      simp only [Watch.step?, hp, Option.ite_none_left_eq_some] at h
      obtain ⟨hnow, h⟩ := h
      refine ⟨now, e, since, rfl, rfl, by omega, ?_⟩
      split at h
      · next hf => rw [if_pos hf, Option.some.inj h]
      · next hf => rw [if_neg hf, Option.some.inj h]
    | _ => simp [Watch.step?, hp] at h
  | wake now =>
    right; right; left
    cases hp : w.loop.phase with
    | pausing ends =>
      simp only [Watch.step?, hp, Option.ite_none_left_eq_some] at h
      obtain ⟨hnow, h⟩ := h
      exact ⟨now, ends, rfl, rfl, by omega, by omega, (Option.some.inj h).symm⟩
    | _ => simp [Watch.step?, hp] at h
  | heed =>
    right; right; right
    cases hp : w.loop.phase with
    | running _ | pausing _ =>
      simp only [Watch.step?, hp, Option.ite_none_right_eq_some] at h
      exact ⟨rfl, h.1, by simp [Watch.isOver, hp], (Option.some.inj h.2).symm⟩
    | _ => simp [Watch.step?, hp] at h

/-! ### After the token has fired -/

/-- How often a loop may still go on once its token has fired: at the end of a pause it has to look
at the token first. -/
def Phase.remaining : Phase → Nat
  | .ready | .running _ => 1
  | .pausing _ => 2
  | .done _ => 0

theorem remaining_le (w : Watch) : w.loop.phase.remaining ≤ 2 := by
  cases w.loop.phase <;> simp [Phase.remaining]

theorem cancel_of_not_over (h : w.isOver = false) :
    w.loop.cancel = { w.loop with phase := .done .cancelled } := by
  unfold State.cancel
  cases hp : w.loop.phase with
  | done o => exact absurd hp (phase_ne_done h o)
  | _ => rfl

/-- **What a loop whose token has fired has come to:** no attempt was started and nothing was
reported, and if it is over by now it was cancelled. -/
structure Fated (w v : Watch) (made : Nat) : Prop where
  fired : v.fired = true
  starts : v.starts = w.starts
  events : v.loop.events = w.loop.events
  remaining : v.loop.phase.remaining + made ≤ w.loop.phase.remaining
  outcome : ∀ o, v.loop.phase = .done o → w.loop.phase = .done o ∨ o = .cancelled

theorem Fated.refl (h : w.fired = true) : Fated w w 0 :=
  ⟨h, rfl, rfl, Nat.le_refl _, fun _ => .inl⟩

theorem Fated.trans {u : Watch} {m n : Nat} (a : Fated w u m) (b : Fated u v n) :
    Fated w v (m + n) where
  fired := b.fired
  starts := b.starts.trans a.starts
  events := b.events.trans a.events
  remaining := by
    have ha := a.remaining
    have hb := b.remaining
    omega
  outcome o ho := (b.outcome o ho).elim (a.outcome o) .inr

/-- A loop that sees its token gives up. -/
theorem Fated.cancel (hf : w.fired = true) (ho : w.isOver = false)
    (hl : v.loop = w.loop.cancel) (hv : v.fired = w.fired) (hs : v.starts = w.starts) :
    Fated w v 1 := by
  have hc : v.loop = { w.loop with phase := .done .cancelled } := hl.trans (cancel_of_not_over ho)
  refine ⟨hv.trans hf, hs, by rw [hc], ?_, fun o hd => ?_⟩
  · rw [hc]
    cases hp : w.loop.phase with
    | done o => exact absurd hp (phase_ne_done ho o)
    | _ => simp [Phase.remaining]
  · rw [hc] at hd
    exact .inr (Phase.done.inj hd).symm

/-- **A move after the token has fired.** -/
theorem Fated.step {m : Move} (hf : w.fired = true) (h : w.step? p name m = some v) :
    Fated w v (if m.isLoop then 1 else 0) := by
  cases hm : m.isLoop with
  | false =>
    cases m with
    | fire =>
      cases h
      exact ⟨rfl, rfl, rfl, Nat.le_refl _, fun _ => .inl⟩
    | _ => cases hm
  | true =>
    rw [if_pos rfl]
    obtain ⟨now, -, hp, -, rfl⟩ | ⟨now, e, since, -, hp, -, rfl⟩ | ⟨now, ends, -, hp, -, -, rfl⟩ |
      ⟨-, -, ho, rfl⟩ := step?_cases h hm
    · rw [if_pos hf]
      exact .cancel hf (by simp [Watch.isOver, hp]) rfl rfl rfl
    · rw [if_pos hf]
      exact .cancel hf (by simp [Watch.isOver, hp]) rfl rfl rfl
    · -- the pause was over as well, and the loop has yet to look at its token
      have hr := resume_of_pausing (p := p) hp
      refine ⟨hf, rfl, by rw [hr], ?_, fun o hd => ?_⟩
      · simp [hr, hp, Phase.remaining]
      · simp [hr] at hd
    · exact .cancel hf ho rfl rfl rfl

/-- **Any number of moves after the token has fired.** -/
theorem Fated.played {moves : List Move} (hf : w.fired = true)
    (h : w.played p name moves = some v) : Fated w v (moves.countP Move.isLoop) := by
  induction moves generalizing w with
  | nil =>
    cases h
    exact .refl hf
  | cons m moves ih =>
    obtain ⟨u, hm, hu⟩ := played_cons.mp h
    have hstep := Fated.step hf hm
    rw [List.countP_cons, Nat.add_comm]
    exact hstep.trans (ih hstep.fired hu)

/-- **A loop whose token has fired can go on at once**, unless it is over. -/
theorem exists_step? (hf : w.fired = true) (ho : w.isOver = false) :
    ∃ m, m.isLoop = true ∧ (w.step? p name m).isSome = true := by
  cases hp : w.loop.phase with
  | ready => exact ⟨.attempt w.now, rfl, by simp [Watch.step?, hp, hf]⟩
  | running _ | pausing _ => exact ⟨.heed, rfl, by simp [Watch.step?, hp, hf]⟩
  | done o => exact absurd hp (phase_ne_done ho o)

/-! ### Before the token has fired -/

/-- **The loop once an attempt has failed** and the pause after it is over. When the attempt was
started does not matter. -/
def State.after (p : RestartPolicy) (name : String) (s : State) (a : Attempt) : State :=
  ((s.begin 0).finish p name a.lasts a.ending).resume p

/-- The loop after these attempts. -/
def State.afterAll (p : RestartPolicy) (name : String) (s : State) (as : List Attempt) : State :=
  as.foldl (State.after p name) s

theorem resume_finish (p : RestartPolicy) (name : String) {s : State} (hs : s.phase = .ready)
    (since lasted : Nat) (e : Ending) :
    (({ s with phase := .running since } : State).finish p name (since + lasted) e).resume p =
      s.after p name { lasts := lasted, ending := e } := by
  unfold State.after
  rw [begin_of_ready hs]
  simp only [State.finish]
  cases e.reason? with
  | none => rfl
  | some reason =>
    simp only [Nat.add_sub_cancel_left, Nat.sub_zero]
    split <;> rfl

/-- An attempt that has ended is followed by a pause or by nothing. -/
theorem finish_phase (p : RestartPolicy) (name : String) {s : State} {since : Nat}
    (hs : s.phase = .running since) (now : Nat) (e : Ending) :
    (∃ ends, now ≤ ends ∧ (s.finish p name now e).phase = .pausing ends) ∨
      ∃ o, (s.finish p name now e).phase = .done o := by
  unfold State.finish
  rw [hs]
  cases e.reason? with
  | none => exact .inr ⟨_, rfl⟩
  | some reason =>
    simp only
    split
    · exact .inr ⟨_, rfl⟩
    · exact .inl ⟨_, Nat.le_add_right _ _, rfl⟩

/-- **A loop that was not cancelled** has come as far as the attempts that have ended take it. -/
structure OnCourse (p : RestartPolicy) (name : String) (w : Watch) : Prop where
  fired : w.fired = false
  cancels : ∀ a ∈ w.ended, a.cancels = false
  loop : match w.loop.phase with
    | .ready => w.loop = (State.fresh p).afterAll p name w.ended
    | .running since => since ≤ w.now ∧
        ((State.fresh p).afterAll p name w.ended).phase = .ready ∧
        w.loop = { (State.fresh p).afterAll p name w.ended with phase := .running since }
    | .pausing _ => w.loop.resume p = (State.fresh p).afterAll p name w.ended
    | .done _ => True

theorem onCourse_fresh (p : RestartPolicy) (name : String) : OnCourse p name (.fresh p) where
  fired := rfl
  cancels := by simp [Watch.fresh]
  loop := rfl

/-- **A move before the token has fired.** -/
theorem OnCourse.step {m : Move} (c : OnCourse p name w) (hm : m.isLoop = true)
    (h : w.step? p name m = some v) : OnCourse p name v := by
  have hloop := c.loop
  obtain ⟨now, -, hp, -, rfl⟩ | ⟨now, e, since, -, hp, hnow, rfl⟩ |
    ⟨now, ends, -, hp, -, -, rfl⟩ | ⟨-, hf, -⟩ := step?_cases h hm
  · rw [if_neg (by simp [c.fired])]
    rw [hp] at hloop
    simp only at hloop
    refine ⟨c.fired, c.cancels, ?_⟩
    simp only [begin_of_ready hp]
    exact ⟨Nat.le_refl _, hloop ▸ hp, by rw [hloop]⟩
  · rw [if_neg (by simp [c.fired])]
    rw [hp] at hloop
    obtain ⟨hsince, hready, hbase⟩ := hloop
    refine ⟨c.fired, fun a ha => ?_, ?_⟩
    · simp only [List.mem_append, List.mem_singleton] at ha
      rcases ha with ha | rfl
      · exact c.cancels a ha
      · rfl
    have hend := resume_finish p name hready since (now - since) e
    rw [← hbase, show since + (now - since) = now by omega] at hend
    have hall : (State.fresh p).afterAll p name (w.ended ++ [{ lasts := now - since, ending := e }])
        = ((State.fresh p).afterAll p name w.ended).after p name
            { lasts := now - since, ending := e } := List.foldl_append
    simp only [hall]
    rcases finish_phase p name hp now e with ⟨ends, -, he⟩ | ⟨o, he⟩
    · rw [he]
      exact hend
    · rw [he]
      trivial
  · rw [hp] at hloop
    have hr : (w.loop.resume p).phase = .ready := by rw [resume_of_pausing hp]
    refine ⟨c.fired, c.cancels, ?_⟩
    simp only [hr]
    exact hloop
  · rw [c.fired] at hf
    cases hf

/-- **Any number of moves before the token has fired.** -/
theorem OnCourse.played {moves : List Move} (c : OnCourse p name w) (hm : Move.fire ∉ moves)
    (h : w.played p name moves = some v) : OnCourse p name v := by
  induction moves generalizing w with
  | nil =>
    cases h
    exact c
  | cons m moves ih =>
    rw [List.mem_cons, not_or] at hm
    obtain ⟨u, hu, hv⟩ := played_cons.mp h
    have hloop : m.isLoop = true := by
      cases m with
      | fire => exact absurd rfl hm.1
      | _ => rfl
    exact ih (c.step hloop hu) hm.2 hv

/-- As long as it is not over, it has reported what the attempts that have ended make it report. -/
theorem OnCourse.events (c : OnCourse p name w) (ho : w.isOver = false) :
    ((State.fresh p).afterAll p name w.ended).phase = .ready ∧
      ((State.fresh p).afterAll p name w.ended).events = w.loop.events := by
  have hloop := c.loop
  cases hp : w.loop.phase with
  | ready =>
    rw [hp] at hloop
    simp only at hloop
    rw [← hloop]
    exact ⟨hp, rfl⟩
  | running since =>
    rw [hp] at hloop
    exact ⟨hloop.2.1, by rw [hloop.2.2]⟩
  | pausing ends =>
    rw [hp] at hloop
    simp only at hloop
    rw [← hloop, resume_of_pausing hp]
    exact ⟨rfl, rfl⟩
  | done o => exact absurd hp (phase_ne_done ho o)

/-! ### The uncancelled run -/

/-- A loop that is over stays as it is. -/
theorem after_of_done {s : State} {o : Outcome} (hs : s.phase = .done o) (a : Attempt) :
    s.after p name a = s := by
  unfold State.after State.begin
  rw [hs]
  simp only
  unfold State.finish
  rw [hs]
  exact resume_of_done hs

theorem afterAll_of_done {s : State} {o : Outcome} (hs : s.phase = .done o) (as : List Attempt) :
    s.afterAll p name as = s := by
  induction as with
  | nil => rfl
  | cons a as ih =>
    show (s.after p name a).afterAll p name as = s
    rw [after_of_done hs, ih]

/-- **What an attempt comes to**, whenever it was started. -/
theorem after_cases (p : RestartPolicy) (name : String) {s : State} (hs : s.phase = .ready)
    {a : Attempt} (ha : a.cancels = false) (since : Nat) :
    let f := ({ s with phase := .running since } : State).finish p name (since + a.lasts) a.ending
    (∃ ends, f.phase = .pausing ends ∧ f.resume p = s.after p name a ∧
      (s.after p name a).phase = .ready) ∨
    ∃ o, f.phase = .done o ∧ f = s.after p name a := by
  intro f
  have he : ({ lasts := a.lasts, ending := a.ending } : Attempt) = a := by rw [← ha]
  have hend : f.resume p = s.after p name a := by
    rw [← he]
    exact resume_finish p name hs since a.lasts a.ending
  rcases finish_phase p name (show ({ s with phase := .running since } : State).phase = _ from rfl)
    (since + a.lasts) a.ending with ⟨ends, -, hp⟩ | ⟨o, hp⟩
  · refine .inl ⟨ends, hp, hend, ?_⟩
    rw [← hend, resume_of_pausing hp]
  · refine .inr ⟨o, hp, ?_⟩
    rw [← hend, resume_of_done hp]

/-- **An attempt on the clock** that is followed by another one. -/
theorem runFrom_succ {s : State} (hs : s.phase = .ready) {script : Nat → Attempt} {k : Nat}
    (hc : (script k).cancels = false) (hr : (s.after p name (script k)).phase = .ready)
    (fuel now : Nat) (starts : List Nat) :
    ∃ now', runFrom p name none script (fuel + 1) k now starts s =
      runFrom p name none script fuel (k + 1) now' (starts ++ [now])
        (s.after p name (script k)) := by
  rw [runFrom]
  simp only [hc, begin_of_ready hs, cancelledBefore, Option.any_none, Bool.false_eq_true, if_false]
  rcases after_cases p name hs hc now with ⟨ends, hp, hend, -⟩ | ⟨o, hp, hend⟩
  · simp only [hp, hend]
    exact ⟨ends, rfl⟩
  · rw [← hend, hp] at hr
    cases hr

/-- **Attempts on the clock** that are each followed by another one. -/
theorem runFrom_add {s : State} {as : List Attempt} {script : Nat → Attempt} {k : Nat}
    (hs : s.phase = .ready) (hr : (s.afterAll p name as).phase = .ready)
    (hc : ∀ a ∈ as, a.cancels = false) (hk : ∀ j (h : j < as.length), script (k + j) = as[j])
    (fuel now : Nat) (starts : List Nat) :
    ∃ now' starts', runFrom p name none script (as.length + fuel) k now starts s =
      runFrom p name none script fuel (k + as.length) now' starts' (s.afterAll p name as) := by
  induction as generalizing s k now starts with
  | nil => exact ⟨now, starts, by simp [State.afterAll]⟩
  | cons a as ih =>
    have ha : script k = a := hk 0 (Nat.succ_pos _)
    have hca : a.cancels = false := hc a List.mem_cons_self
    have hr' : ((s.after p name a).afterAll p name as).phase = .ready := hr
    have hnext : (s.after p name a).phase = .ready := by
      rcases after_cases p name hs hca 0 with ⟨_, -, -, hn⟩ | ⟨o, hp, hend⟩
      · exact hn
      · rw [hend] at hp
        rw [afterAll_of_done hp, hp] at hr'
        cases hr'
    have hk' : ∀ j (h : j < as.length), script (k + 1 + j) = as[j] := fun j hj => by
      rw [Nat.add_right_comm]
      exact hk (j + 1) (Nat.succ_lt_succ hj)
    obtain ⟨now', hstep⟩ := runFrom_succ hs (ha ▸ hca) (ha ▸ hnext) (as.length + fuel) now starts
    obtain ⟨now'', starts', hrest⟩ :=
      ih hnext hr' (fun b hb => hc b (List.mem_cons_of_mem _ hb)) hk' now' (starts ++ [now])
    refine ⟨now'', starts', ?_⟩
    rw [List.length_cons, Nat.add_right_comm, hstep, ha, hrest, Nat.add_right_comm]
    rfl

theorem finish_events (p : RestartPolicy) (name : String) (s : State) (now : Nat) (e : Ending) :
    s.events <+: (s.finish p name now e).events := by
  unfold State.finish
  split
  · exact List.prefix_rfl
  · simp only
    split
    · exact List.prefix_append _ _
    · exact List.prefix_append _ _
  · exact List.prefix_rfl

/-- **A run on the clock only adds to its report.** -/
theorem runFrom_events (cancelAt : Option Nat) (script : Nat → Attempt) (fuel k now : Nat)
    (starts : List Nat) (s : State) :
    s.events <+: (runFrom p name cancelAt script fuel k now starts s).events := by
  induction fuel generalizing k now starts s with
  | zero => exact List.prefix_rfl
  | succ fuel ih =>
    have hbegin : (s.begin now).events = s.events := by
      unfold State.begin
      split <;> rfl
    have hfin := finish_events p name (s.begin now) (now + (script k).lasts)
      (script k).ending
    rw [hbegin] at hfin
    rw [runFrom]
    simp only
    split
    · exact List.prefix_rfl
    split
    · exact List.prefix_rfl
    split
    · exact hfin
    · next hp =>
      split
      · exact hfin
      · refine hfin.trans (List.IsPrefix.trans ?_ (ih _ _ _ _))
        simp only [resume_of_pausing hp, List.prefix_rfl]
    · exact hfin

/-- **What was reported before the token fired** is what the uncancelled run reports of the attempts
that had ended by then, whatever the attempts after them are. -/
theorem OnCourse.uncancelled (c : OnCourse p name w) (ho : w.isOver = false)
    {script : Nat → Attempt} (hs : ∀ k (h : k < w.ended.length), script k = w.ended[k])
    (more : Nat) :
    (runFrom p name none script w.ended.length 0 0 [] (.fresh p)).events = w.loop.events ∧
      w.loop.events <+:
        (runFrom p name none script (w.ended.length + more) 0 0 [] (.fresh p)).events := by
  obtain ⟨hready, hevents⟩ := c.events ho
  have hk : ∀ j (h : j < w.ended.length), script (0 + j) = w.ended[j] := fun j hj => by
    rw [Nat.zero_add, hs j hj]
  have hrun := runFrom_add (show (State.fresh p).phase = .ready from rfl) hready c.cancels hk
  constructor
  · obtain ⟨now, starts, he⟩ := hrun 0 0 []
    rw [← hevents, ← Nat.add_zero w.ended.length, he]
    rfl
  · obtain ⟨now, starts, he⟩ := hrun more 0 []
    rw [he, ← hevents]
    exact runFrom_events _ _ _ _ _ _ _

/-! ### The law -/

/-- **Cancellation is final.** A loop is under way when its token fires, after any moves. From then
on no attempt is started and nothing is reported, in whichever order the loop sees what has come; it
is over after at most two moves more, which it can make at once, and then it was cancelled. What it
has reported is what the uncancelled run reports of the attempts that had ended when the token
fired. -/
theorem cancellation_final {before after : List Move}
    (hw : (Watch.fresh p).played p name before = some w) (hb : Move.fire ∉ before)
    (ho : w.isOver = false) (hv : w.played p name (.fire :: after) = some v) :
    v.starts = w.starts ∧ v.loop.events = w.loop.events ∧
    (v.loop.phase = .done .cancelled ∨ after.countP Move.isLoop < 2 ∧
      ∃ m, m.isLoop = true ∧ (v.step? p name m).isSome = true) ∧
    ∀ script : Nat → Attempt, (∀ k (h : k < w.ended.length), script k = w.ended[k]) → ∀ more,
      (runFrom p name none script w.ended.length 0 0 [] (.fresh p)).events = v.loop.events ∧
        v.loop.events <+:
          (runFrom p name none script (w.ended.length + more) 0 0 [] (.fresh p)).events := by
  obtain ⟨u, hfire, hafter⟩ := played_cons.mp hv
  cases hfire
  have hf := Fated.played (w := { w with fired := true }) rfl hafter
  have hevents : v.loop.events = w.loop.events := hf.events
  refine ⟨hf.starts, hevents, ?_, fun script hs more => ?_⟩
  · cases hover : v.isOver with
    | false =>
      right
      refine ⟨?_, exists_step? hf.fired hover⟩
      have hle := hf.remaining
      have hmax := remaining_le w
      have hpos : 1 ≤ v.loop.phase.remaining := by
        cases hp : v.loop.phase with
        | done o => exact absurd hp (phase_ne_done hover o)
        | _ => simp [Phase.remaining]
      have hsame : ({ w with fired := true } : Watch).loop = w.loop := rfl
      rw [hsame] at hle
      omega
    | true =>
      left
      cases hp : v.loop.phase with
      | done o =>
        rcases hf.outcome o hp with hd | rfl
        · exact absurd hd (phase_ne_done ho o)
        · rfl
      | _ => simp [Watch.isOver, hp] at hover
  · rw [hevents]
    exact ((onCourse_fresh p name).played hb hw).uncancelled ho hs more

/-- A token that fires during a pause whose end is seen before it. -/
theorem cancellation_final_at_wake :
    let policy : RestartPolicy :=
      { initialBackoff := 100, maxBackoff := 400, maxRestarts := 3, stableAfter := 1000 }
    let before : List Move := [.attempt 0, .ending 5 (.failed ["lost"])]
    ∃ w v, (Watch.fresh policy).played policy "flush" before = some w ∧ Move.fire ∉ before ∧
      w.isOver = false ∧ w.played policy "flush" [.fire, .wake 105, .attempt 105] = some v ∧
      v.starts = w.starts ∧ v.loop.events = [.restarted "flush" 1 "lost"] ∧
      v.loop.phase = .done .cancelled := by
  intro policy before
  let w : Watch :=
    { loop := ⟨.pausing 105, ⟨1, 100⟩, [.restarted "flush" 1 "lost"]⟩, now := 5
      starts := [0], ended := [{ lasts := 5, ending := .failed ["lost"] }] }
  have hw : (Watch.fresh policy).played policy "flush" before = some w := by decide +kernel
  have hv : ∃ v, w.played policy "flush" [.fire, .wake 105, .attempt 105] = some v := ⟨_, rfl⟩
  obtain ⟨v, hv⟩ := hv
  obtain ⟨hstarts, hevents, hover, -⟩ := cancellation_final hw (by decide) rfl hv
  exact ⟨w, v, hw, by decide, rfl, hv, hstarts, hevents,
    hover.resolve_right fun h => absurd h.1 (by decide)⟩

/-! ### The run on a clock -/

/-- **A play and a report** that say the same. -/
structure Tells (v : Watch) (r : Report) : Prop where
  starts : v.starts = r.starts
  events : v.loop.events = r.events
  outcome : ∀ o, r.outcome = some o ↔ v.loop.phase = .done o

/-- An attempt that may start does so. -/
theorem exists_attempt (p : RestartPolicy) (name : String) (hp : w.loop.phase = .ready)
    (hf : w.fired = false) {now : Nat} (hn : w.now ≤ now) :
    ∃ u, w.step? p name (.attempt now) = some u ∧ u.fired = false ∧ u.now = now ∧
      u.starts = w.starts ++ [now] ∧ u.loop = { w.loop with phase := .running now } :=
  ⟨{ w with now, loop := { w.loop with phase := .running now }, starts := w.starts ++ [now] },
    by simp [Watch.step?, begin_of_ready hp, hp, hf, Nat.not_lt.mpr hn], hf, rfl, rfl, rfl⟩

/-- An attempt that runs ends. -/
theorem exists_ending (p : RestartPolicy) (name : String) {since : Nat}
    (hp : w.loop.phase = .running since) (hf : w.fired = false) {now : Nat} (hn : w.now ≤ now)
    (e : Ending) :
    ∃ u, w.step? p name (.ending now e) = some u ∧ u.fired = false ∧ u.now = now ∧
      u.starts = w.starts ∧ u.loop = w.loop.finish p name now e :=
  ⟨{ w with now, ended := w.ended ++ [{ lasts := now - since, ending := e }]
            loop := w.loop.finish p name now e },
    by simp [Watch.step?, hp, hf, Nat.not_lt.mpr hn], hf, rfl, rfl, rfl⟩

/-- A pause that is over ends. -/
theorem exists_wake (p : RestartPolicy) (name : String) {ends : Nat}
    (hp : w.loop.phase = .pausing ends) (hf : w.fired = false) (hn : w.now ≤ ends) :
    ∃ u, w.step? p name (.wake ends) = some u ∧ u.fired = false ∧ u.now = ends ∧
      u.starts = w.starts ∧ u.loop = w.loop.resume p :=
  ⟨{ w with now := ends, loop := w.loop.resume p },
    by simp [Watch.step?, hp, Nat.not_lt.mpr hn], hf, rfl, rfl, rfl⟩

/-- A token that fires while a loop waits is seen. -/
theorem exists_fire_heed (p : RestartPolicy) (name : String) (hp : w.loop.phase ≠ .ready)
    (ho : w.isOver = false) (now : Nat) :
    ∃ v, w.played p name [.fire, .heed] = some v ∧
      Tells v ⟨some .cancelled, w.starts, now, w.loop.events⟩ := by
  have hc := cancel_of_not_over ho
  refine ⟨{ w with fired := true, loop := { w.loop with phase := .done .cancelled } }, ?_,
    rfl, rfl, fun o => by simp⟩
  cases hq : w.loop.phase with
  | ready => exact absurd hq hp
  | running _ | pausing _ => simp [Watch.played, Watch.step?, hq, hc]
  | done o => exact absurd hq (phase_ne_done ho o)

/-- **Attempts on the clock** are one order of moves. -/
theorem exists_played_runFrom (cancelAt : Option Nat) (script : Nat → Attempt) (fuel k : Nat)
    {now : Nat} (hp : w.loop.phase = .ready) (hf : w.fired = false) (hn : w.now ≤ now) :
    ∃ moves v, w.played p name moves = some v ∧
      Tells v (runFrom p name cancelAt script fuel k now w.starts w.loop) := by
  induction fuel generalizing w k now with
  | zero => exact ⟨[], w, rfl, rfl, rfl, fun o => by simp [runFrom, hp]⟩
  | succ fuel ih =>
    obtain ⟨x, hattempt, hfx, hnx, hsx, hlx⟩ := exists_attempt p name hp hf hn
    have hpx : x.loop.phase = .running now := by rw [hlx]
    have hgiven : ∀ till, ∃ moves v, w.played p name moves = some v ∧
        Tells v ⟨some .cancelled, w.starts ++ [now], till, w.loop.events⟩ := fun till => by
      obtain ⟨v, hv, htells⟩ := exists_fire_heed p name
        (show x.loop.phase ≠ .ready by simp [hpx]) (by simp [Watch.isOver, hpx]) till
      rw [hsx, hlx] at htells
      exact ⟨_, v, played_cons.mpr ⟨x, hattempt, hv⟩, htells⟩
    rw [runFrom]
    simp only [begin_of_ready hp, ← hlx, ← hsx] at hgiven ⊢
    split
    · exact hgiven _
    split
    · exact hgiven _
    obtain ⟨y, hending, hfy, hny, hsy, hly⟩ := exists_ending p name hpx hfx
      (show x.now ≤ now + (script k).lasts by omega) (script k).ending
    rcases finish_phase p name hpx (now + (script k).lasts) (script k).ending with
      ⟨wake, hwake, hphase⟩ | ⟨o, hphase⟩
    · simp only [hphase]
      rw [← hly] at hphase ⊢
      rw [← hsy]
      split
      · obtain ⟨v, hv, htells⟩ := exists_fire_heed p name
          (show y.loop.phase ≠ .ready by simp [hphase]) (by simp [Watch.isOver, hphase])
          (cancelAt.getD wake)
        exact ⟨_, v, played_cons.mpr ⟨x, hattempt, played_cons.mpr ⟨y, hending, hv⟩⟩, htells⟩
      · obtain ⟨z, hwoken, hfz, hnz, hsz, hlz⟩ := exists_wake p name hphase hfy
          (by omega)
        have hpz : z.loop.phase = .ready := by rw [hlz, resume_of_pausing hphase]
        obtain ⟨moves, v, hv, htells⟩ := ih (k + 1) hpz hfz (Nat.le_of_eq hnz)
        rw [hsz, hlz] at htells
        exact ⟨_, v, played_cons.mpr ⟨x, hattempt, played_cons.mpr ⟨y, hending,
          played_cons.mpr ⟨z, hwoken, hv⟩⟩⟩, htells⟩
    · simp only [hphase]
      rw [← hly] at hphase ⊢
      refine ⟨[.attempt now, .ending (now + (script k).lasts) (script k).ending], y,
        played_cons.mpr ⟨x, hattempt, played_cons.mpr ⟨y, hending, rfl⟩⟩, hsy, rfl, fun o' => ?_⟩
      simp [hphase]

/-- **The run on a clock is one order of moves.** -/
theorem exists_played (p : RestartPolicy) (name : String) (cancelled : Bool)
    (cancelAt : Option Nat) (attempts : List Attempt) :
    ∃ moves v, (Watch.fresh p).played p name moves = some v ∧
      Tells v (run p name cancelled cancelAt attempts) := by
  unfold run
  split
  · refine ⟨[.fire, .attempt 0], _, rfl, rfl, rfl, fun o => ?_⟩
    simp [Watch.fresh, State.fresh, State.cancel]
  · exact exists_played_runFrom _ _ _ _ rfl rfl (Nat.le_refl _)

end PaneRelay.Supervisor
