import PaneRelay.Proofs.Batcher.Work

/-! # The end of a batcher

A stop fires the batcher's token, waits until the task of the loop is over, and flushes what is
left. In between the loop may make a last round, and its task flushes everything on its way out.
Each of these takes whole buffers, so whichever comes first delivers what waits for a pane, and
leaves nothing for those behind it. With the last flush output begins to pass straight through, so
that no buffer is ever filled again.

* `Stops`: how a stop may end, whatever the loop does meanwhile; `stops_stop` is one way.
* `Stops.worked`: all of it is work.
* `Closed`, `Passing`: a batcher after a stop, and what it does.
* `stop_flushes_once`: what a stop delivers, and what comes after it. -/

namespace PaneRelay.Batcher

/-! ### What may happen during a stop -/

/-- A step of the loop, its supervisor, the clock or the loop's token: nobody calls the batcher. -/
def Step.isOwn : Step → Bool
  | .wake | .tick | .conclude | .supervise | .elapse _ | .fire => true
  | _ => false

/-- **How a stop may end:** the token fires, the loop goes on as it likes until its task is over, and
the last flush follows. It does not matter what writers and the loop were at when it began. -/
def Stops (b e : Batcher) : Prop :=
  ∃ (c d : Crew) (ss : List Step) (last : Crew),
    c.batcher = { b with cancelled := true } ∧ (∀ s ∈ ss, s.isOwn = true) ∧
      c.run ss = some d ∧ d.step .shut = some last ∧ last.batcher = e

/-- A round is work, whether or not it ends the attempt. -/
theorem worked_round (b : Batcher) (loop : Supervisor.State) (period : Nat) :
    Worked b.flushDue.2 (b.round loop period).1 := by
  rcases round_cases b loop period with h | ⟨e, events, h⟩
  · rw [h]
    exact .refl _
  · rw [h]
    exact .single (.aside (Nat.le_refl _))

theorem worked_step {c d : Crew} {s : Step} (hs : s.isOwn = true) (h : c.step s = some d) :
    Worked c.batcher d.batcher := by
  cases s with
  | wake =>
    unfold Crew.step at h
    obtain ⟨-, h⟩ := Option.ite_none_right_eq_some.mp h
    obtain ⟨s, -, rfl⟩ := Option.map_eq_some_iff.mp h
    have hround : Work c.batcher (flushDue { c.batcher with wake := false }).2 := .heed
    exact (Worked.single hround).trans (worked_round _ _ _)
  | tick =>
    obtain ⟨s, -, rfl⟩ := Option.map_eq_some_iff.mp h
    exact (Worked.single (.drain .round)).trans (worked_round _ _ _)
  | conclude =>
    obtain ⟨f, -, rfl⟩ := Option.map_eq_some_iff.mp h
    exact .single (.aside (Nat.le_refl _))
  | elapse ms =>
    cases h
    exact .single (.aside (Nat.le_add_right _ _))
  | fire =>
    cases h
    exact .single (.aside (Nat.le_refl _))
  | supervise =>
    replace h : c.supervised = some d := h
    unfold Crew.supervised at h
    split at h
    · cases h
    · split at h
      · split at h
        · cases h
          exact .single (.aside (Nat.le_refl _))
        · cases h
      · obtain ⟨b', hb', rfl⟩ := Option.map_eq_some_iff.mp h
        exact (turned_of_turn hb').worked
  | _ => cases hs

theorem worked_own {c d : Crew} {ss : List Step} (hss : ∀ s ∈ ss, s.isOwn = true)
    (h : c.run ss = some d) : Worked c.batcher d.batcher := by
  induction ss generalizing c with
  | nil =>
    obtain rfl : c = d := by simpa using h
    exact .refl _
  | cons s ss ih =>
    obtain ⟨e, he, hrest⟩ := Option.bind_eq_some_iff.mp h
    exact (worked_step (hss s List.mem_cons_self) he).trans
      (ih (fun s' hs => hss s' (List.mem_cons_of_mem _ hs)) hrest)

/-- The last flush comes after the task. -/
theorem step_shut {c d : Crew} (h : c.step .shut = some d) :
    d.batcher = { (c.batcher.drain .last).2 with stopped := true } := by
  cases htask : c.batcher.task with
  | active loop period deadline =>
    simp only [Crew.step, htask] at h
    cases h
  | _ =>
    simp only [Crew.step, htask] at h
    cases h
    rfl

/-- **A stop is work,** and ends with the last flush. -/
theorem Stops.worked {b e : Batcher} (h : Stops b e) :
    ∃ m, Worked b m ∧ e = { (m.drain .last).2 with stopped := true } := by
  obtain ⟨c, d, ss, last, hc, hss, hrun, hshut, rfl⟩ := h
  have hcancel : Work b { b with cancelled := true } := .aside (Nat.le_refl _)
  have howned := worked_own hss hrun
  rw [hc] at howned
  refine ⟨d.batcher, (Worked.single hcancel).trans howned, ?_⟩
  exact step_shut hshut

/-! ### A stop that nothing comes between -/

theorem Turned.cancelled {b b' : Batcher} (h : Turned b b') (hc : b.cancelled = true) :
    b'.cancelled = true := by
  cases h with
  | ended => exact hc
  | linked cancelled => exact absurd (cancelled.symm.trans hc) (by decide)
  | dropped => exact hc
  | began task phase cancelled => exact absurd (cancelled.symm.trans hc) (by decide)
  | woken task phase cancelled wake => exact absurd (cancelled.symm.trans hc) (by decide)
  | ticked task phase cancelled wake due => exact absurd (cancelled.symm.trans hc) (by decide)
  | resumed task phase cancelled due => exact absurd (cancelled.symm.trans hc) (by decide)

/-- Once the token has fired, the loop leaves its turns to the supervisor. -/
theorem run_supervise (n : Nat) {b : Batcher} (hc : b.cancelled = true) :
    ∃ k, (Crew.of b).run (List.replicate k .supervise) = some (Crew.of (turns n b)) := by
  induction n generalizing b with
  | zero => exact ⟨0, rfl⟩
  | succ n ih =>
    cases h : b.turn with
    | none => exact ⟨0, by rw [turns_of_none h]; rfl⟩
    | some b' =>
      obtain ⟨k, hk⟩ := ih ((turned_of_turn h).cancelled hc)
      refine ⟨k + 1, ?_⟩
      rw [turns_of_some h, List.replicate_succ, Crew.run_cons,
        Crew.step_supervise h (.inr hc)]
      exact hk

/-- A loop that is over ends its task, once the token has fired. -/
theorem turns_done (n : Nat) {b : Batcher} {loop : Supervisor.State} {period deadline : Nat}
    {o : Supervisor.Outcome} (hc : b.cancelled = true)
    (htask : b.task = .active loop period deadline) (hphase : loop.phase = .done o) :
    (turns (n + 1) b).task = .done := by
  have hturn : b.turn = some { b.flushAll.2 with task := .done } := by
    unfold turn
    simp only [htask, hphase, hc, if_true]
  rw [turns_of_some hturn, turns_of_none (b := { b.flushAll.2 with task := .done }) rfl]

/-- **The task ends** once the token has fired, if there is one. -/
theorem settle_task {b : Batcher} (hc : b.cancelled = true) :
    ∀ loop period deadline, b.settle.task ≠ .active loop period deadline := by
  intro loop period deadline hactive
  cases htask : b.task with
  | absent =>
    have hnone : b.turn = none := by
      unfold turn
      simp only [htask]
    unfold settle at hactive
    rw [turns_of_none hnone, htask] at hactive
    cases hactive
  | done =>
    have hnone : b.turn = none := by
      unfold turn
      simp only [htask]
    unfold settle at hactive
    rw [turns_of_none hnone, htask] at hactive
    cases hactive
  | active s period' deadline' =>
    have hdone : b.settle.task = .done := by
      cases hphase : s.phase with
      | done o => exact turns_done 15 hc htask hphase
      | _ =>
        have hturn : b.turn = some { b with task := .active s.cancel period' deadline' } := by
          unfold turn
          simp only [htask, hphase, hc, if_true]
        have hcancel : s.cancel.phase = .done .cancelled := by
          unfold Supervisor.State.cancel
          rw [hphase]
        unfold settle
        rw [turns_of_some hturn]
        exact turns_done (b := { b with task := .active s.cancel period' deadline' }) 14 hc rfl
          hcancel
    rw [hdone] at hactive
    cases hactive

/-- **A stop that nothing comes between** is one way to stop. -/
theorem stops_stop (b : Batcher) : Stops b b.stop.2 := by
  obtain ⟨k, hk⟩ := run_supervise 16 (b := { b with cancelled := true }) rfl
  have hshut : (Crew.of (settle { b with cancelled := true })).step .shut =
      some { Crew.of b.stop.2 with slipped := [] } := by
    cases htask : (Crew.of (settle { b with cancelled := true })).batcher.task with
    | active loop period deadline =>
      exact absurd htask (settle_task (b := { b with cancelled := true }) rfl loop period deadline)
    | _ =>
      simp only [Crew.step, htask]
      rfl
  refine ⟨_, _, _, _, rfl, fun s hs => ?_, hk, hshut, rfl⟩
  rw [List.eq_of_mem_replicate hs]
  rfl

theorem stop_fst {b : Batcher} (h : b.sink.Reliable) : b.stop.1 = none := by
  have hsettled : (settle { b with cancelled := true }).sink.Reliable :=
    (worked_turns 16 { b with cancelled := true }).induct Work.reliable h
  unfold stop
  rw [flushAll_eq (by exact hsettled)]

/-! ### Work on empty buffers -/

/-- **From empty buffers nothing is delivered**, whatever the sink is like, and they stay empty. -/
theorem drain_quiet {b : Batcher} (h : ∀ p, buffered b.panes p = ByteArray.empty) (d : Drain) :
    (b.drain d).1 = none ∧ (b.drain d).2.sink = b.sink ∧
      ∀ p, buffered (b.drain d).2.panes p = ByteArray.empty := by
  have hnone : b.drained d = [] := by
    rw [List.eq_nil_iff_forall_not_mem]
    intro c hc
    exact (mem_drained_panes.mp (List.mem_map.mpr ⟨c, hc, rfl⟩)).1 (h c.pane)
  have hrest : ∀ p, buffered (b.remaining d) p = ByteArray.empty := by
    intro p
    rcases dataOf_drained b d p with ⟨-, hrest⟩ | ⟨-, -, hrest⟩
    · exact hrest.trans (h p)
    · exact hrest
  obtain ⟨pool, -, hd⟩ := drain_eq b d
  rw [hnone] at hd
  rw [hd]
  exact ⟨rfl, rfl, hrest⟩

/-- **Work on empty buffers** delivers nothing. -/
theorem Worked.quiet {b b' : Batcher} (h : Worked b b')
    (hb : ∀ p, buffered b.panes p = ByteArray.empty) : b'.sink = b.sink := by
  have hwork : ∀ {m m'}, Work m m' →
      (m.sink = b.sink ∧ ∀ p, buffered m.panes p = ByteArray.empty) →
      m'.sink = b.sink ∧ ∀ p, buffered m'.panes p = ByteArray.empty := by
    rintro m m' hw ⟨hsink, hm⟩
    have hdrain : ∀ d, (m.drain d).2.sink = b.sink ∧
        ∀ p, buffered (m.drain d).2.panes p = ByteArray.empty := by
      intro d
      obtain ⟨-, h1, h2⟩ := drain_quiet hm d
      exact ⟨h1.trans hsink, h2⟩
    cases hw with
    | aside later => exact ⟨hsink, hm⟩
    | drain d => exact hdrain d
    | heed => exact hdrain .round
    | shut => exact hdrain .last
  exact (h.induct hwork ⟨rfl, hb⟩).1

/-! ### After a stop -/

/-- **A batcher after a stop**, in order and in front of a reliable sink. -/
structure Closed (b : Batcher) : Prop where
  tidy : Tidy b
  reliable : b.sink.Reliable
  stopped : b.stopped = true

namespace Closed

variable {b : Batcher}

theorem write (h : Closed b) (p : PaneId) {d : ByteArray} (hd : d ≠ ByteArray.empty) :
    b.write p d = (none, { b with sink := b.sink.took b.now [⟨p, d⟩] }) := by
  have hw := written_of_write h.tidy.pool p d
  generalize b.write p d = r at hw
  cases hw with
  | nothing blank => exact absurd blank hd
  | passed => rw [Sink.deliver_eq h.reliable]
  | added solid stopped => exact absurd (stopped.symm.trans h.stopped) (by decide)

/-- **A closed batcher stays closed.** -/
theorem run (h : Closed b) (ms : List Move) : Closed (b.run ms) := by
  refine run_induct (fun hw hb => ?_) (fun {b} p d hb => ?_) h ms
  · exact ⟨hw.tidy hb.tidy, hw.reliable hb.reliable, hw.stopped hb.stopped⟩
  · refine ⟨(Wrote.write hb.tidy p d).tidy, (write_reliable hb.reliable hb.tidy.pool p d).2, ?_⟩
    by_cases hd : d = ByteArray.empty
    · subst hd
      exact hb.stopped
    · rw [hb.write p hd]
      exact hb.stopped

theorem of_stops {e : Batcher} (ht : Tidy b) (hr : b.sink.Reliable) (h : Stops b e) :
    Closed e := by
  obtain ⟨m, hm, rfl⟩ := h.worked
  have hall : Worked b { (m.drain .last).2 with stopped := true } := hm.tail .shut
  exact ⟨hall.induct Work.tidy ht, hall.induct Work.reliable hr, rfl⟩

end Closed

/-- **Output passes straight through:** no bytes wait, every write is delivered at once, and nothing
else delivers anything or starts the loop again. -/
structure Passing (b : Batcher) : Prop where
  empty : ∀ p, buffered b.panes p = ByteArray.empty
  write : ∀ p d, d ≠ ByteArray.empty →
    b.write p d = (none, { b with sink := b.sink.took b.now [⟨p, d⟩] })
  start : b.start = b
  stop : b.stop.1 = none ∧ b.stop.2.sink = b.sink
  stops : ∀ e, Stops b e → e.sink = b.sink
  remove : ∀ p, (b.remove p).1 = none ∧ (b.remove p).2.sink = b.sink
  retain : ∀ live, (b.retain live).1 = none ∧ (b.retain live).2.2.sink = b.sink

theorem Closed.passing {b : Batcher} (h : Closed b) : Passing b := by
  have hempty := h.tidy.passing h.stopped
  have hstops : ∀ e, Stops b e → e.sink = b.sink := by
    intro e hs
    obtain ⟨m, hm, rfl⟩ := hs.worked
    exact (hm.tail .shut).quiet hempty
  refine ⟨hempty, fun p d hd => h.write p hd, ?_, ⟨?_, hstops _ (stops_stop b)⟩, hstops,
    fun p => ?_, fun live => ?_⟩
  · unfold start
    rw [h.stopped, if_pos rfl]
    split <;> rfl
  · exact stop_fst h.reliable
  · obtain ⟨hnone, hsink, -⟩ := drain_quiet hempty (.remove p)
    exact ⟨hnone, hsink⟩
  · obtain ⟨hnone, hsink, -⟩ := drain_quiet hempty (.retain live)
    exact ⟨hnone, hsink⟩

/-- **A stop flushes once, and then output passes through.** Take a batcher at any moment of a run,
whatever became of its loop and of its sink, and let the sink never fail from then on. However the
last round, the last flush of the task and that of the stop itself follow each other, together they
deliver one chunk of every pane with bytes that wait, all of them, and nothing else. Whatever is
asked of the batcher after that, no bytes wait any more. -/
theorem stop_flushes_once (policy : BatchPolicy) (restart : RestartPolicy)
    (fate : Nat → Option String) (before : List Move) :
    let b := ((fresh policy restart fate).run before).mended
    b.stop.1 = none ∧ Stops b b.stop.2 ∧ ∀ e, Stops b e →
      (∀ p, Delivers b e p (piece (buffered b.panes p))) ∧ ∀ after, Passing (e.run after) := by
  intro b
  have htidy : Tidy ((fresh policy restart fate).run before) :=
    ((tidy_fresh policy restart fate).run before).1
  have ht : Tidy b := ⟨htidy.pool, htidy.solid, htidy.passing⟩
  refine ⟨stop_fst rfl, stops_stop b, fun e he => ?_⟩
  have hclosed : Closed e := .of_stops ht rfl he
  refine ⟨fun p => ?_, fun after => (hclosed.run after).passing⟩
  obtain ⟨m, hm, rfl⟩ := he.worked
  obtain ⟨-, -, hserved⟩ := (hm.tail .shut).served rfl p
  exact hserved.delivers_piece (hclosed.tidy.passing hclosed.stopped p)

/-- A stop with a last round between its token and the end of the task: the round delivers the buffer
that is full, and the task the other one. -/
theorem stop_flushes_once_after_round :
    let policy : BatchPolicy := { (default : BatchPolicy) with maxBytes := 4 }
    let before : List Move := [.op .start, .turn, .op (.write "%0" "full".toUTF8),
      .op (.write "%1" "x".toUTF8)]
    let b := ((fresh policy default).run before).mended
    ∃ e, Stops b e ∧ Delivers b e "%0" ["full".toUTF8] ∧ Delivers b e "%1" ["x".toUTF8] ∧
      Delivers b e "%2" [] ∧ Passing e := by
  intro policy before b
  let ss : List Step := [.wake, .conclude, .supervise, .elapse 1, .supervise]
  let stopping : Crew := Crew.of { b with cancelled := true }
  have hsome : ((stopping.run ss).bind fun d => d.step .shut).isSome = true := by decide +kernel
  obtain ⟨last, hlast⟩ := Option.isSome_iff_exists.mp hsome
  obtain ⟨d, hd, hshut⟩ := Option.bind_eq_some_iff.mp hlast
  have hstops : Stops b last.batcher :=
    ⟨stopping, d, ss, last, rfl, by decide, hd, hshut, rfl⟩
  obtain ⟨hcalls, hafter⟩ :=
    (stop_flushes_once policy default (fun _ => none) before).2.2 last.batcher hstops
  have hfull : piece (buffered b.panes "%0") = ["full".toUTF8] := by decide +kernel
  have hshort : piece (buffered b.panes "%1") = ["x".toUTF8] := by decide +kernel
  have hnone : piece (buffered b.panes "%2") = [] := by decide +kernel
  exact ⟨last.batcher, hstops, hfull ▸ hcalls "%0", hshort ▸ hcalls "%1", hnone ▸ hcalls "%2",
    hafter []⟩

end PaneRelay.Batcher
