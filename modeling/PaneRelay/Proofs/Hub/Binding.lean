import PaneRelay.Proofs.Hub.Lifetime

/-! # The one attempt to bind

A start first notes that it was called, and binds the port then. If that fails the note stays. So the
port of a hub is tried by one start only, and a hub that failed to bind it stays down: a later start
is told that the hub was started before, and a stop that it never was.

* `Answer.isTry`: the answers that tell what came of binding the port.
* `step_answers`: what a step adds to the answers.
* `Noted`: what every step keeps. The note is there iff the port was tried, and it was tried once.
* `start_failed`, `down_of_failed`: what a failure leaves behind.
* `startable_iff`: when a start may bind the port, and when it is refused. -/

namespace PaneRelay.Hub

/-- Whether it tells what came of binding the port. -/
def Answer.isTry : Answer → Bool
  | .started (.ok ()) | .started (.error (.bind _)) => true
  | _ => false

theorem Answer.isTry_iff {a : Answer} : a.isTry = true ↔
    a = .started (.ok ()) ∨ ∃ reason, a = .started (.error (.bind reason)) := by
  unfold isTry
  split
  · exact iff_of_true rfl (.inl rfl)
  · next reason => exact iff_of_true rfl (.inr ⟨reason, rfl⟩)
  · next hup hfailed =>
    refine iff_of_false (by decide) ?_
    rintro (h | ⟨reason, h⟩)
    · exact hup h
    · exact hfailed reason h

/-- A start is refused if there was one before, or a stop has come to its end. -/
theorem start_refused_iff {l : Lifecycle} {bound : Except String Unit} :
    (l.start bound).1 = .error .alreadyStarted ↔ l.started = true ∨ l.stopped.isSome = true := by
  unfold Lifecycle.start
  split
  · next h => exact iff_of_true rfl (by simpa [or_comm] using h)
  · next h =>
    refine iff_of_false ?_ (by simpa [and_comm] using h)
    cases bound <;> rintro ⟨⟩

/-- Else it tells what came of binding the port. -/
theorem start_bound_iff {l : Lifecycle} {bound : Except String Unit} :
    (l.start bound).1 = bound.mapError .bind ↔ l.started = false ∧ l.stopped = none := by
  unfold Lifecycle.start
  split
  · next h =>
    refine iff_of_false ?_ ?_
    · cases bound <;> rintro ⟨⟩
    · rintro ⟨hstarted, hstopped⟩
      simp [hstarted, hstopped] at h
  · next h =>
    refine iff_of_true ?_ (by simpa [and_comm] using h)
    cases bound <;> rfl

namespace Front

variable {f g : Front}

/-- **What a step adds to the answers.** Only a start notes that it was called. -/
theorem step_answers {s : Step} (hs : f.step s = some g) :
    (∃ bound, g = f.start bound) ∨
      g.hub.life.started = f.hub.life.started ∧
        (g.answers = f.answers ∨ ∃ r, g.answers = f.answers ++ [.stopped r]) := by
  cases s with
  | start bound =>
    cases hs
    exact .inl ⟨bound, rfl⟩
  | stop =>
    cases hs
    refine .inr ⟨?_, .inl ?_⟩
    · show f.stop.hub.life.started = _
      unfold stop
      split
      · rfl
      · rcases beginStop_cases f.hub.life with ⟨-, he⟩ | ⟨-, ⟨-, he⟩ | ⟨-, he⟩⟩ <;>
          · rw [he]
    · show f.stop.answers = _
      unfold stop
      split <;> rfl
  | finish =>
    obtain ⟨-, hs⟩ := Option.ite_none_right_eq_some.mp hs
    cases hs
    refine .inr ⟨?_, .inl rfl⟩
    show f.hub.life.finishStop.started = _
    unfold Lifecycle.finishStop
    split <;> rfl
  | reply =>
    obtain ⟨n, r, -, -, rfl⟩ := reply_eq_some.mp hs
    exact .inr ⟨rfl, .inr ⟨r, rfl⟩⟩
  | lapse =>
    obtain ⟨-, hs⟩ := Option.ite_none_right_eq_some.mp hs
    cases hs
    exact .inr ⟨rfl, .inl rfl⟩
  | cancel =>
    cases hs
    exact .inr ⟨rfl, .inl rfl⟩
  | knock =>
    cases hs
    exact .inr ⟨rfl, .inl rfl⟩
  | look i =>
    obtain ⟨_, -, rfl⟩ := Option.map_eq_some_iff.mp hs
    exact .inr ⟨rfl, .inl rfl⟩
  | enter i now =>
    obtain ⟨_, -, rfl⟩ := Option.map_eq_some_iff.mp hs
    refine .inr ⟨?_, .inl rfl⟩
    show (f.hub.act (.attach now)).life.started = _
    rw [attach_life]
  | inner a =>
    obtain ⟨ha, hs⟩ := Option.ite_none_right_eq_some.mp hs
    cases hs
    refine .inr ⟨?_, .inl rfl⟩
    show (f.hub.act a).life.started = _
    rw [act_life f.hub ha]

/-- No answer is taken back. -/
theorem answers_run {ss : List Step} (hr : f.run ss = some g) : f.answers <+: g.answers := by
  refine run_induct (P := fun g => f.answers <+: g.answers) (fun e s g he hs => he.trans ?_)
    (List.prefix_refl _) hr
  rcases step_answers hs with ⟨bound, rfl⟩ | ⟨-, ha | ⟨r, ha⟩⟩
  · exact List.prefix_append ..
  · exact ha ▸ List.prefix_refl _
  · rw [ha]
    exact List.prefix_append ..

/-! ### What every step keeps -/

/-- **What every step keeps.** -/
structure Noted (f : Front) : Prop where
  /-- The port was tried once if a start has noted that it was called, and never else. -/
  once : (f.answers.filter Answer.isTry).length = if f.hub.life.started then 1 else 0
  /-- A start was called: that was noted, or it came after the end of a stop. -/
  called : ∀ r, .started r ∈ f.answers →
    f.hub.life.started = true ∨ f.hub.life.stopped.isSome = true

namespace Noted

theorem fresh (policy : HubPolicy) : Noted (Front.fresh policy) where
  once := rfl
  called _ hr := absurd hr List.not_mem_nil

theorem start (h : Noted f) (bound : Except String Unit) : Noted (f.start bound) := by
  unfold Front.start
  rcases start_cases f.hub.life bound with hr | ⟨-, hstarted, hr⟩
  · -- it is refused, and nothing changes
    rw [hr]
    have hwhy : f.hub.life.started = true ∨ f.hub.life.stopped.isSome = true :=
      start_refused_iff.mp (congrArg Prod.fst hr)
    refine ⟨?_, fun _ _ => hwhy⟩
    rw [List.filter_append, List.length_append, h.once]
    rfl
  have hnone : (f.answers.filter Answer.isTry).length = 0 := by
    rw [h.once, hstarted]
    rfl
  rcases hr with ⟨reason, hr⟩ | hr <;>
    · rw [hr]
      refine ⟨?_, fun _ _ => .inl rfl⟩
      rw [List.filter_append, List.length_append, hnone]
      rfl

/-- **Every step keeps it.** -/
theorem step (h : Noted f) {s : Step} (hs : f.step s = some g) : Noted g := by
  have hlater := later_step hs
  rcases step_answers hs with ⟨bound, rfl⟩ | ⟨hstarted, ha⟩
  · exact h.start bound
  have hsame : (∀ r, .started r ∈ g.answers → .started r ∈ f.answers) ∧
      g.answers.filter Answer.isTry = f.answers.filter Answer.isTry := by
    rcases ha with ha | ⟨r, ha⟩
    · rw [ha]
      exact ⟨fun _ => id, rfl⟩
    · rw [ha, List.filter_append]
      exact ⟨fun q hq => by simpa using hq, List.append_nil _⟩
  refine ⟨?_, fun r hr => ?_⟩
  · rw [hsame.2, hstarted]
    exact h.once
  · rw [hstarted]
    refine (h.called r (hsame.1 r hr)).imp_right fun hstopped => ?_
    obtain ⟨q, hq⟩ := Option.isSome_iff_exists.mp hstopped
    rw [hlater.stopped q hq]
    rfl

theorem run (h : Noted f) {ss : List Step} (hr : f.run ss = some g) : Noted g :=
  run_induct (fun _ _ _ hn hs => hn.step hs) h hr

/-- **The note** is there iff the port was tried. -/
theorem started_iff (h : Noted f) : f.hub.life.started = true ↔
    .started (.ok ()) ∈ f.answers ∨ ∃ reason, .started (.error (.bind reason)) ∈ f.answers := by
  have hlength : f.hub.life.started = true ↔ 0 < (f.answers.filter Answer.isTry).length := by
    rw [h.once]
    cases f.hub.life.started <;> decide
  rw [hlength, List.length_pos_iff_exists_mem]
  constructor
  · rintro ⟨a, ha⟩
    obtain ⟨hmem, htry⟩ := List.mem_filter.mp ha
    rcases Answer.isTry_iff.mp htry with rfl | ⟨reason, rfl⟩
    · exact .inl hmem
    · exact .inr ⟨reason, hmem⟩
  · rintro (hmem | ⟨reason, hmem⟩)
    · exact ⟨_, List.mem_filter.mpr ⟨hmem, rfl⟩⟩
    · exact ⟨_, List.mem_filter.mpr ⟨hmem, rfl⟩⟩

/-- All that is told of binding the port is the same. -/
theorem eq_of_isTry (h : Noted f) {a b : Answer} (ha : a ∈ f.answers) (hb : b ∈ f.answers)
    (hta : a.isTry = true) (htb : b.isTry = true) : a = b := by
  have hma : a ∈ f.answers.filter Answer.isTry := List.mem_filter.mpr ⟨ha, hta⟩
  have hmb : b ∈ f.answers.filter Answer.isTry := List.mem_filter.mpr ⟨hb, htb⟩
  have hle : (f.answers.filter Answer.isTry).length ≤ 1 := by
    rw [h.once]
    split <;> decide
  obtain ⟨c, hc⟩ := List.length_eq_one_iff.mp (Nat.le_antisymm hle (List.length_pos_of_mem hma))
  rw [hc, List.mem_singleton] at hma hmb
  rw [hma, hmb]

/-- A hub that failed to bind its port was not started by another start. -/
theorem not_up_of_failed (h : Noted f) {reason : String}
    (hf : .started (.error (.bind reason)) ∈ f.answers) : .started (.ok ()) ∉ f.answers := by
  intro hup
  cases h.eq_of_isTry hup hf rfl rfl

/-- **A start tells what came of binding the port** iff it is the first one, and before the end of
any stop. -/
theorem bound_iff (h : Noted f) (bound : Except String Unit) :
    (f.hub.life.start bound).1 = bound.mapError .bind ↔
      (∀ r, .started r ∉ f.answers) ∧ f.hub.life.stopped = none := by
  rw [start_bound_iff]
  constructor
  · rintro ⟨hstarted, hstopped⟩
    refine ⟨fun r hm => ?_, hstopped⟩
    rcases h.called r hm with hs | hs
    · rw [hstarted] at hs
      cases hs
    · rw [hstopped] at hs
      cases hs
  · rintro ⟨hnone, hstopped⟩
    refine ⟨?_, hstopped⟩
    rw [← Bool.not_eq_true, h.started_iff]
    rintro (hm | ⟨reason, hm⟩)
    · exact hnone _ hm
    · exact hnone _ hm

/-- **A refusal has a good reason** unless an earlier start failed to bind the port. -/
theorem reason_iff (h : Noted f) (bound : Except String Unit) :
    ((f.hub.life.start bound).1 = .error .alreadyStarted →
        .started (.ok ()) ∈ f.answers ∨ f.hub.life.stopped.isSome = true) ↔
      (∀ reason, .started (.error (.bind reason)) ∉ f.answers) ∨
        f.hub.life.stopped.isSome = true := by
  rw [start_refused_iff]
  constructor
  · intro hwhy
    by_cases hstopped : f.hub.life.stopped.isSome = true
    · exact .inr hstopped
    refine .inl fun reason hf => ?_
    have hstarted := h.started_iff.mpr (.inr ⟨reason, hf⟩)
    rcases hwhy (.inl hstarted) with hup | hs
    · exact h.not_up_of_failed hf hup
    · exact hstopped hs
  · rintro (hnone | hstopped) (hstarted | hs)
    · rcases h.started_iff.mp hstarted with hup | ⟨reason, hf⟩
      · exact .inl hup
      · exact absurd hf (hnone reason)
    · exact .inr hs
    · exact .inr hstopped
    · exact .inr hs

end Noted

/-! ### What a failure leaves behind -/

/-- **What a failure to bind the port changes** is the note, and nothing else. -/
theorem start_failed {bound : Except String Unit} {reason : String}
    (h : (f.hub.life.start bound).1 = .error (.bind reason)) : f.hub.life.started = false ∧
    f.start bound = { f with
      hub := { f.hub with life := { f.hub.life with started := true } }
      answers := f.answers ++ [.started (.error (.bind reason))] } := by
  unfold start
  rcases start_cases f.hub.life bound with hr | ⟨-, hstarted, ⟨reason', hr⟩ | hr⟩
  · rw [hr] at h
    cases h
  · rw [hr] at h
    cases h
    exact ⟨hstarted, by rw [hr]⟩
  · rw [hr] at h
    cases h

/-- **A hub that failed to bind its port stays down**, and answers two things. -/
theorem down_of_failed (hn : Noted f) (hk : Kept f) {reason : String}
    (hf : .started (.error (.bind reason)) ∈ f.answers) :
    (∀ bound, (f.hub.life.start bound).1 = .error .alreadyStarted) ∧
    .started (.ok ()) ∉ f.answers ∧ f.hub.life.hasAddress = false ∧
    ∀ r, .stopped r ∈ f.answers → r = .error .notStarted := by
  have hnever := hn.not_up_of_failed hf
  obtain ⟨hrunning, hdraining⟩ : f.hub.life.running = false ∧ f.hub.life.draining = false := by
    have hdown := mt hk.up.mpr hnever
    simpa using hdown
  refine ⟨fun bound => ?_, hnever, ?_, fun r hr => ?_⟩
  · exact start_refused_iff.mpr (.inl (hn.started_iff.mpr (.inr ⟨reason, hf⟩)))
  · unfold Lifecycle.hasAddress
    rw [hrunning]
    rfl
  · obtain ⟨-, -, hwhy⟩ := hk.ended r (hk.told r hr)
    exact hwhy.mpr hdraining

/-- **When a hub can be started.** However starts, stops and all the rest follow each other, a start
tells what came of binding the port iff no start was called before and no stop has come to its end.
So a refusal means that an earlier start succeeded or a stop has come to its end just if no earlier
start failed to bind the port, or a stop has come to its end all the same. A start that fails to bind
it does not leave the hub as it was, but with the note that it was called; and then, whatever
happens, every later start is refused, the hub never has an address, and all stops say that it was
never started. -/
theorem startable_iff {policy : HubPolicy} {ss : List Step}
    (hr : (Front.fresh policy).run ss = some f) (bound : Except String Unit) :
    ((f.hub.life.start bound).1 = bound.mapError .bind ↔
      (∀ r, .started r ∉ f.answers) ∧ f.hub.life.stopped = none) ∧
    (((f.hub.life.start bound).1 = .error .alreadyStarted →
        .started (.ok ()) ∈ f.answers ∨ f.hub.life.stopped.isSome = true) ↔
      (∀ reason, .started (.error (.bind reason)) ∉ f.answers) ∨
        f.hub.life.stopped.isSome = true) ∧
    (∀ reason, (f.hub.life.start bound).1 = .error (.bind reason) →
      (f.hub.life.started = false ∧ f.start bound = { f with
        hub := { f.hub with life := { f.hub.life with started := true } }
        answers := f.answers ++ [.started (.error (.bind reason))] }) ∧
      ∀ ts g, (f.start bound).run ts = some g →
        (∀ again, (g.hub.life.start again).1 = .error .alreadyStarted) ∧
        .started (.ok ()) ∉ g.answers ∧ g.hub.life.hasAddress = false ∧
        ∀ r, .stopped r ∈ g.answers → r = .error .notStarted) := by
  have hn : Noted f := (Noted.fresh policy).run hr
  have hk : Kept f := (Kept.fresh policy).run hr
  refine ⟨hn.bound_iff bound, hn.reason_iff bound, fun reason hfailed => ?_⟩
  have hstart := start_failed hfailed
  refine ⟨hstart, fun ts g hts => ?_⟩
  have hmem : .started (.error (.bind reason)) ∈ (f.start bound).answers := by
    rw [hstart.2]
    simp
  exact down_of_failed ((hn.start bound).run hts) ((hk.start bound).run hts)
    ((answers_run hts).subset hmem)

/-- Why the port of another hub cannot be bound. -/
def taken : String := "127.0.0.1:7681: Address already in use (os error 98)"

/-- A consumer's request does not keep a hub from being started, nor does a token that has fired; but
the port is taken, and then free. -/
theorem startable_iff_of_taken : ∃ f g, (Front.fresh ⟨7681, 1, 1, 1, 1⟩).run [.knock, .cancel] =
      some f ∧ (f.hub.life.start (.error taken)).1 = .error (.bind taken) ∧
    (f.start (.error taken)).run [.start (.ok ()), .stop, .reply] = some g ∧
    g.answers = [.started (.error (.bind taken)), .started (.error .alreadyStarted),
      .stopped (.error .notStarted)] ∧
    (∀ again, (g.hub.life.start again).1 = .error .alreadyStarted) ∧
    g.hub.life.hasAddress = false := by
  have hr : (Front.fresh ⟨7681, 1, 1, 1, 1⟩).run [.knock, .cancel] = some _ := rfl
  obtain ⟨hbound, -, hfailed⟩ := startable_iff hr (.error taken)
  have hanswer := hbound.mpr ⟨fun _ => List.not_mem_nil, rfl⟩
  obtain ⟨-, hdown⟩ := hfailed taken hanswer
  obtain ⟨hrefused, -, hnone, -⟩ := hdown [.start (.ok ()), .stop, .reply] _ rfl
  exact ⟨_, _, hr, hanswer, rfl, rfl, hrefused, hnone⟩

/-- **A hub whose port was taken** is not started when the port is free, although no start succeeded
and it was not stopped. The start is told that the hub was already started, and the stop that comes
next that it was never started. -/
theorem refused_when_free : ∃ f, (Front.fresh ⟨7681, 1, 1, 1, 1⟩).run [.start (.error taken)] =
      some f ∧ f.hub.life.started ≠ (Front.fresh ⟨7681, 1, 1, 1, 1⟩).hub.life.started ∧
    .started (.ok ()) ∉ f.answers ∧ f.hub.life.stopped = none ∧
    ((Front.fresh ⟨7681, 1, 1, 1, 1⟩).hub.life.start (.ok ())).1 = .ok () ∧
    (f.hub.life.start (.ok ())).1 = .error .alreadyStarted ∧
    ∃ g, (f.start (.ok ())).run [.stop, .reply] = some g ∧
      g.answers = [.started (.error (.bind taken)), .started (.error .alreadyStarted),
        .stopped (.error .notStarted)] := by
  have hr : (Front.fresh ⟨7681, 1, 1, 1, 1⟩).run [.start (.error taken)] = some _ := rfl
  refine ⟨_, hr, by decide, fun hup => ?_, rfl, rfl, rfl, _, rfl, rfl⟩
  cases List.mem_singleton.mp hup

end Front

end PaneRelay.Hub
