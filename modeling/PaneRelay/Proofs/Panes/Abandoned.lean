import PaneRelay.Proofs.Panes.History

/-! # Panes that a failed start leaves behind

Panes are started one after the other, and each has its task at once. If one cannot be started the
list of those before it is dropped, and nobody can shut them down; but the task of each holds its
terminal, and goes on. What can happen from then on is everything that does not belong to a
shutdown.

* `Step.isEnding`, `started`: the steps that are out of reach, and the terminals that were started.
* `Worker.Own`: a task that was told nothing is done with its loops only when they have come to
  their ends by themselves.
* `Alone`: what every step keeps of panes that nobody shuts down.
* `spawnFrom_run`: a spawn that fails is the run of the starts before the failure.
* `abandoned_iff`: which of the panes are closed.
* `left_running`: one that is not. -/

namespace PaneRelay.PaneSet

open Terminal (TerminalError)
open Supervisor (Ending)

/-- Whether a step belongs to a shutdown, or comes after one. -/
def Step.isEnding : Step → Bool
  | .shutdown | .shut _ | .fire | .back | .stop => true
  | .spawn _ | .read .. | .duty .. | .elapse _ | .outside _ => false

/-- The terminal that a step starts a pane with. -/
def Step.started : Step → Option Terminal
  | .spawn t => some t
  | _ => none

/-- **The terminals that were started**, one after the other. -/
def started (steps : List Step) : List Terminal := steps.filterMap Step.started

theorem started_cons (s : Step) (steps : List Step) :
    started (s :: steps) = s.started.toList ++ started steps := by
  unfold started
  rw [List.filterMap_cons]
  cases s.started <;> rfl

/-- Whether a task has not closed its terminal yet. -/
def Stage.isLooping : Stage → Bool
  | .looping => true
  | _ => false

/-- **What has become of a terminal** that only its task can close. -/
def Worker.leaves (w : Worker) (t : Terminal) : Terminal :=
  if w.stage.isLooping then t else t.close.2

/-! ### Tasks that are told nothing -/

/-- **A task that is on its own.** -/
structure Worker.Own (w : Worker) : Prop where
  /-- Without an attempt all its loops have come to their ends. -/
  busy : w.isRunning = true ∨ w.readers.all Reader.hasEnded = true
  /-- It was not cancelled. -/
  kept : w.loop.phase ≠ .done .cancelled
  /-- It has closed its terminal only after its last attempt. -/
  spent : w.stage.isLooping = false → w.isIdle = true

theorem Worker.own_fresh (policy : RestartPolicy) :
    Worker.Own { loop := .fresh policy } := ⟨.inr rfl, nofun, nofun⟩

theorem phase_finish {policy : RestartPolicy} {name : String} {s : Supervisor.State} {now : Nat}
    {e : Ending} (h : s.phase ≠ .done .cancelled) :
    (s.finish policy name now e).phase ≠ .done .cancelled := by
  unfold Supervisor.State.finish
  split
  · nofun
  · dsimp only
    split <;> nofun
  · exact h

/-- A loop that has come to its end makes no move. -/
theorem Reader.not_hasEnded {r r' : Reader} {m : Move} {readable : Bool}
    (h : r.move readable m = some r') : r.hasEnded = false := by
  cases r with
  | ended => cases m <;> cases h
  | asks | reads | holds => rfl

namespace Worker.Own

variable {w w' : Worker} {y : Yard} {p : Pane}

/-- The loops move in an attempt only. -/
theorem move (h : w.Own) {j : Nat} {r r' : Reader} {m : Move} {readable : Bool}
    (hr : w.readers[j]? = some r) (hm : r.move readable m = some r') :
    Own { w with readers := w.readers.set j r' } := by
  refine ⟨.inl (h.busy.resolve_right fun hall => ?_), h.kept, h.spent⟩
  have hend := List.all_eq_true.mp hall r (List.mem_of_getElem? hr)
  rw [Reader.not_hasEnded hm] at hend
  cases hend

/-- A task that has closed its terminal did so when its loops had come to their ends. -/
theorem ended (h : w.Own) (hs : w.stage.isLooping = false) :
    w.readers.all Reader.hasEnded = true ∧ ∃ o, w.loop.phase = .done o ∧ o ≠ .cancelled := by
  have hidle : w.isIdle = true := h.spent hs
  unfold isIdle at hidle
  split at hidle
  · next o hphase =>
    refine ⟨h.busy.resolve_left (by simp [isRunning, hphase]), o, hphase, ?_⟩
    rintro rfl
    exact h.kept hphase
  · cases hidle

end Worker.Own

namespace Yard

variable {policy : RestartPolicy} {batcher : Batcher} {outlet : Hub.Outlet} {y z : Yard}
  {ts : List Terminal}

/-- A task that has closed its terminal leaves all terminals alone. -/
theorem act_closed {p : Pane} {w w' : Worker} {d : Duty} (hs : w.stage.isLooping = false)
    (ha : y.act p w d = some w') : w'.stage.isLooping = false ∧ w'.loop = w.loop ∧
      w'.readers = w.readers ∧ (y.effect p w d).panes = y.set.panes := by
  unfold act at ha
  unfold effect
  cases hst : w.stage with
  | looping =>
    rw [hst] at hs
    cases hs
  | closed | released | parted | thinned =>
    rw [hst] at ha
    cases d <;> cases ha
    exact ⟨rfl, rfl, rfl, rfl⟩
  | done =>
    rw [hst] at ha
    cases d <;> cases ha

theorem isLooping_iff {s : Stage} : s.isLooping = true ↔ s = .looping := by
  cases s <;> simp [Stage.isLooping]

/-- **What a duty does to the terminals:** a task closes its own, and leaves the others alone. -/
theorem act_leaves {p : Pane} {w w' : Worker} {d : Duty} (ha : y.act p w d = some w') :
    w'.stage.isLooping = w.stage.isLooping ∧ (y.effect p w d).panes = y.set.panes ∨
      w.stage.isLooping = true ∧ w'.stage.isLooping = false ∧
        (y.effect p w d).panes = (y.set.withTerminal p.id p.terminal.close.2).panes := by
  cases hs : w.stage.isLooping with
  | false =>
    obtain ⟨hs', -, -, hpanes⟩ := act_closed hs ha
    exact .inl ⟨hs', hpanes⟩
  | true =>
    have hst := isLooping_iff.mp hs
    unfold act at ha
    unfold effect
    rw [hst] at ha ⊢
    cases d with
    | close =>
      obtain ⟨-, ha⟩ := Option.ite_none_right_eq_some.mp ha
      obtain rfl := Option.some.inj ha
      exact .inr ⟨rfl, rfl, rfl⟩
    | start | join | resume | notice =>
      obtain ⟨-, ha⟩ := Option.ite_none_right_eq_some.mp ha
      obtain rfl := Option.some.inj ha
      exact .inl ⟨rfl, rfl⟩
    | release | part | thin | forget => cases ha

/-- **A task that is told nothing stays on its own.** -/
theorem own_act {p : Pane} {w w' : Worker} {d : Duty} (h : w.Own) (hf : y.fired = false)
    (ha : y.act p w d = some w') : w'.Own := by
  cases hs : w.stage.isLooping with
  | false =>
    obtain ⟨-, hloop, hreaders, -⟩ := act_closed hs ha
    refine ⟨?_, by rw [hloop]; exact h.kept, fun _ => ?_⟩
    · unfold Worker.isRunning
      rw [hloop, hreaders]
      exact h.busy
    · unfold Worker.isIdle
      rw [hloop]
      exact h.spent hs
  | true =>
    have hst := isLooping_iff.mp hs
    unfold act at ha
    rw [hst] at ha
    cases d with
    | start =>
      obtain ⟨hready, ha⟩ := Option.ite_none_right_eq_some.mp ha
      obtain rfl := Option.some.inj ha
      have hphase : (w.loop.begin y.set.batcher.now).phase = .running y.set.batcher.now := by
        simp [Supervisor.State.begin, hready]
      refine ⟨.inl ?_, ?_, nofun⟩
      · simp [Worker.isRunning, hphase]
      · rw [hphase]
        nofun
    | join e =>
      obtain ⟨hready, ha⟩ := Option.ite_none_right_eq_some.mp ha
      obtain rfl := Option.some.inj ha
      obtain ⟨-, hall⟩ := Bool.and_eq_true_iff.mp hready
      refine ⟨.inr hall, ?_, nofun⟩
      rw [hf]
      exact phase_finish h.kept
    | resume =>
      obtain ⟨hpausing, ha⟩ := Option.ite_none_right_eq_some.mp ha
      obtain rfl := Option.some.inj ha
      obtain ⟨ends, hphase⟩ : ∃ ends, w.loop.phase = .pausing ends := by
        unfold Worker.isPausing at hpausing
        split at hpausing
        · next ends hphase => exact ⟨ends, hphase⟩
        · cases hpausing
      refine ⟨.inr (h.busy.resolve_left ?_), ?_, nofun⟩
      · simp [Worker.isRunning, hphase]
      · simp [Supervisor.State.resume, hphase]
    | notice =>
      -- there is nothing to be seen
      obtain ⟨hfired, -⟩ := Option.ite_none_right_eq_some.mp ha
      rw [hf] at hfired
      cases hfired
    | close =>
      obtain ⟨hidle, ha⟩ := Option.ite_none_right_eq_some.mp ha
      obtain rfl := Option.some.inj ha
      exact ⟨h.busy, h.kept, fun _ => hidle⟩
    | release | part | thin | forget => cases ha

/-! ### Panes that nobody shuts down -/

/-- **What every step keeps** of panes that nobody shuts down, with the terminals they were started
with. -/
structure Alone (ts : List Terminal) (y : Yard) : Prop where
  up : y.phase = .up
  opened : ∀ t ∈ ts, t.isClosed = false
  counted : y.workers.length = ts.length
  paired : y.set.panes.length = ts.length
  own : ∀ w ∈ y.workers, w.Own
  /-- Each terminal is as it was started, or was closed by its own task. -/
  leaves : ∀ (i : Nat) (w : Worker) (t : Terminal), y.workers[i]? = some w → ts[i]? = some t →
    y.set.panes[i]? = some ⟨idOf i, w.leaves t⟩

namespace Alone

theorem opened_nil (policy : RestartPolicy) (batcher : Batcher) (outlet : Hub.Outlet) :
    (Yard.opened policy batcher outlet).Alone [] :=
  ⟨rfl, fun _ ht => absurd ht List.not_mem_nil, rfl, rfl, fun _ hw => absurd hw List.not_mem_nil,
    fun _ _ _ hw => by cases hw⟩

theorem fired (h : y.Alone ts) : y.fired = false := by
  unfold Yard.fired
  rw [h.up]

/-- Another task for one of the panes, and what it does to the terminals. -/
theorem set (h : y.Alone ts) {i : Nat} {w' : Worker} {s : PaneSet} (hown : w'.Own)
    (hlen : s.panes.length = y.set.panes.length)
    (hself : ∀ t, ts[i]? = some t → s.panes[i]? = some ⟨idOf i, w'.leaves t⟩)
    (hothers : ∀ k, k ≠ i → s.panes[k]? = y.set.panes[k]?) :
    Alone ts { y with set := s, workers := y.workers.set i w' } := by
  refine ⟨h.up, h.opened, (List.length_set ..).trans h.counted, hlen.trans h.paired,
    fun w hw => ?_, fun k w t hw ht => ?_⟩
  · obtain hw | rfl := List.mem_or_eq_of_mem_set hw
    · exact h.own w hw
    · exact hown
  · by_cases hk : k = i
    · subst hk
      obtain ⟨hlt, -⟩ := List.getElem?_eq_some_iff.mp hw
      rw [List.getElem?_set_self (by simpa using hlt)] at hw
      obtain rfl := Option.some.inj hw
      exact hself t ht
    · rw [List.getElem?_set_ne (Ne.symm hk)] at hw
      rw [hothers k hk]
      exact h.leaves k w t hw ht

theorem spawn (h : y.Alone ts) {t : Terminal} (ht : t.isClosed = false) :
    Alone (ts ++ [t]) { y with
      set := y.set.add (idOf y.workers.length) t
      workers := y.workers ++ [{ loop := .fresh y.policy }] } := by
  refine ⟨h.up, fun u hu => ?_, by simp [h.counted], by simp [add, h.paired], fun w hw => ?_,
    fun k w u hw hu => ?_⟩
  · obtain hu | hu := List.mem_append.mp hu
    · exact h.opened u hu
    · rw [List.mem_singleton.mp hu]
      exact ht
  · obtain hw | hw := List.mem_append.mp hw
    · exact h.own w hw
    · rw [List.mem_singleton.mp hw]
      exact Worker.own_fresh y.policy
  · by_cases hk : k < ts.length
    · rw [List.getElem?_append_left (h.counted ▸ hk)] at hw
      rw [List.getElem?_append_left hk] at hu
      rw [add, List.getElem?_append_left (h.paired ▸ hk)]
      exact h.leaves k w u hw hu
    · -- it is the new one
      obtain ⟨hlt, -⟩ := List.getElem?_eq_some_iff.mp hu
      obtain rfl : k = ts.length := by
        rw [List.length_append, List.length_singleton] at hlt
        omega
      rw [← h.counted, List.getElem?_concat_length] at hw
      rw [List.getElem?_concat_length] at hu
      obtain rfl := Option.some.inj hw
      obtain rfl := Option.some.inj hu
      rw [add, ← h.paired, List.getElem?_concat_length, h.counted, h.paired]
      rfl

theorem id_eq (h : y.Alone ts) {i : Nat} {p : Pane} (hp : y.set.panes[i]? = some p) :
    p.id = idOf i := by
  obtain ⟨hlt, -⟩ := List.getElem?_eq_some_iff.mp hp
  have hw := List.getElem?_eq_getElem (l := y.workers) (i := i) (by rwa [h.counted, ← h.paired])
  have ht := List.getElem?_eq_getElem (l := ts) (i := i) (by rwa [← h.paired])
  have hsame := h.leaves i _ _ hw ht
  rw [hp] at hsame
  rw [Option.some.inj hsame]

/-- Of all panes just the one with a number has its ID. -/
theorem panes_close (h : y.Alone ts) {i : Nat} {p : Pane} (hp : y.set.panes[i]? = some p)
    (t : Terminal) :
    (y.set.withTerminal p.id t).panes[i]? = some { p with terminal := t } ∧
      ∀ k, k ≠ i → (y.set.withTerminal p.id t).panes[k]? = y.set.panes[k]? := by
  refine ⟨by simp [withTerminal_get, hp], fun k hk => ?_⟩
  rw [withTerminal_get]
  cases hq : y.set.panes[k]? with
  | none => rfl
  | some q =>
    have hne : q.id ≠ p.id := by
      rw [h.id_eq hq, h.id_eq hp]
      exact fun he => hk (idOf_injective he)
    rw [Option.map_some, if_neg hne]

/-- **Every step keeps it** that does not belong to a shutdown. -/
theorem step (h : y.Alone ts) {s : Step} (hs : s.isEnding = false) (hz : y.step s = some z) :
    z.Alone (ts ++ s.started.toList) := by
  cases s with
  | shutdown | shut | fire | back | stop => cases hs
  | spawn t =>
    obtain ⟨⟨-, ht⟩, hz⟩ := Option.ite_none_right_eq_some.mp hz
    obtain rfl := Option.some.inj hz
    exact h.spawn ht
  | elapse | outside =>
    obtain rfl := Option.some.inj hz
    show Alone (ts ++ []) _
    rw [List.append_nil]
    exact ⟨h.up, h.opened, h.counted, h.paired, h.own, h.leaves⟩
  | read i j m =>
    obtain ⟨w, p, r, r', hw, hp, hr, hm, rfl⟩ := step_read.mp hz
    show Alone (ts ++ []) _
    rw [List.append_nil]
    have hpanes : (y.set.write p.id (r.handed m)).panes = y.set.panes := write_panes ..
    refine h.set ((h.own w (List.mem_of_getElem? hw)).move hr hm) (congrArg _ hpanes)
      (fun t ht => ?_) (fun k _ => by rw [hpanes])
    rw [hpanes]
    exact h.leaves i w t hw ht
  | duty i d =>
    obtain ⟨w, p, w', hw, hp, ha, rfl⟩ := step_duty.mp hz
    show Alone (ts ++ []) _
    rw [List.append_nil]
    have hown := own_act (h.own w (List.mem_of_getElem? hw)) h.fired ha
    obtain ⟨hsame, hpanes⟩ | ⟨hloops, hcloses, hpanes⟩ := act_leaves ha
    · refine h.set hown (congrArg _ hpanes) (fun t ht => ?_) (fun k _ => by rw [hpanes])
      rw [hpanes, Worker.leaves, hsame]
      exact h.leaves i w t hw ht
    · -- the ID stands for one pane, so the other terminals stay as they are
      obtain ⟨hself, hothers⟩ := h.panes_close hp p.terminal.close.2
      refine h.set hown ?_ (fun t ht => ?_) (fun k hk => ?_)
      · rw [hpanes]
        exact List.length_map _
      · have hsame := h.leaves i w t hw ht
        rw [Worker.leaves, if_pos hloops, hp] at hsame
        obtain rfl := Option.some.inj hsame
        rw [hpanes, hself, Worker.leaves, if_neg (by simp [hcloses])]
      · rw [hpanes]
        exact hothers k hk

theorem run (h : y.Alone ts) {steps : List Step} (hs : ∀ s ∈ steps, s.isEnding = false)
    (hr : y.run steps = some z) : z.Alone (ts ++ started steps) := by
  induction steps generalizing y ts with
  | nil =>
    obtain rfl : y = z := by simpa using hr
    rw [show ts ++ started [] = ts from List.append_nil ts]
    exact h
  | cons s steps ih =>
    obtain ⟨u, hu, hr⟩ := Option.bind_eq_some_iff.mp hr
    rw [started_cons, ← List.append_assoc]
    exact ih (h.step (hs s List.mem_cons_self) hu) (fun r hr => hs r (.tail _ hr)) hr

/-- **A terminal is closed** iff its own task has closed it. -/
theorem isClosed_iff (h : y.Alone ts) {i : Nat} {w : Worker} {p : Pane}
    (hw : y.workers[i]? = some w) (hp : y.set.panes[i]? = some p) :
    p.terminal.isClosed = true ↔ w.stage.isLooping = false := by
  obtain ⟨hlt, -⟩ := List.getElem?_eq_some_iff.mp hp
  have ht := List.getElem?_eq_getElem (l := ts) (i := i) (by rwa [← h.paired])
  have hsame := h.leaves i w _ hw ht
  rw [hp] at hsame
  rw [Option.some.inj hsame]
  show (w.leaves _).isClosed = true ↔ _
  unfold Worker.leaves
  cases w.stage.isLooping with
  | true => simp [h.opened _ (List.mem_of_getElem? ht)]
  | false => simp [Terminal.isClosed_close]

theorem all_closed_iff (h : y.Alone ts) : (∀ p ∈ y.set.panes, p.terminal.isClosed = true) ↔
    ∀ w ∈ y.workers, w.stage.isLooping = false := by
  have hlen : y.set.panes.length = y.workers.length := h.paired.trans h.counted.symm
  constructor
  · intro hall w hw
    obtain ⟨i, hi, rfl⟩ := List.getElem_of_mem hw
    have hp := List.getElem?_eq_getElem (l := y.set.panes) (i := i) (by rwa [hlen])
    exact (h.isClosed_iff (List.getElem?_eq_getElem hi) hp).mp (hall _ (List.mem_of_getElem? hp))
  · intro hall p hp
    obtain ⟨i, hi, rfl⟩ := List.getElem_of_mem hp
    have hw := List.getElem?_eq_getElem (l := y.workers) (i := i) (by rwa [← hlen])
    exact (h.isClosed_iff hw (List.getElem?_eq_getElem hi)).mpr (hall _ (List.mem_of_getElem? hw))

end Alone

/-! ### A spawn that fails -/

/-- **A spawn that fails** is the run of the starts before the failure, with nothing in between. -/
theorem spawnFrom_run {start : Nat → Except TerminalError Terminal} (command : String)
    {cause : TerminalError} {n i : Nat} (hup : y.phase = .up) (hi : y.workers.length = i)
    (hopen : ∀ t ∈ ts, t.isClosed = false)
    (hok : ∀ (j : Nat) (t : Terminal), ts[j]? = some t → start (i + j) = .ok t)
    (hfail : start (i + ts.length) = .error cause) (hn : ts.length < n) :
    ∃ z, spawnFrom start command n i y.set = (some ⟨idOf (i + ts.length), command, cause⟩, z.set) ∧
      y.run (ts.map .spawn) = some z ∧
      z.set.panes = y.set.panes ++ ts.mapIdx fun j t => ⟨idOf (i + j), t⟩ := by
  induction ts generalizing n i y with
  | nil =>
    obtain ⟨n, rfl⟩ := Nat.exists_eq_add_one.mpr hn
    have hfail : start i = .error cause := hfail
    exact ⟨y, by rw [spawnFrom, hfail]; rfl, rfl, (List.append_nil _).symm⟩
  | cons t ts ih =>
    obtain ⟨n, rfl⟩ := Nat.exists_eq_add_one.mpr (Nat.lt_of_le_of_lt (Nat.zero_le _) hn)
    have ht : start i = .ok t := hok 0 t rfl
    have hstep : y.step (.spawn t) = some { y with
        set := y.set.add (idOf y.workers.length) t
        workers := y.workers ++ [{ loop := .fresh y.policy }] } :=
      if_pos ⟨hup, hopen t List.mem_cons_self⟩
    have hnext : i + (t :: ts).length = i + 1 + ts.length := by
      rw [List.length_cons]
      omega
    rw [hnext] at hfail ⊢
    obtain ⟨z, hz, hr, hpanes⟩ := ih (n := n) (i := i + 1)
      (y := { y with
        set := y.set.add (idOf y.workers.length) t
        workers := y.workers ++ [{ loop := .fresh y.policy }] }) hup (by simp [hi])
      (fun u hu => hopen u (.tail _ hu))
      (fun j u hu => by
        rw [Nat.add_assoc, Nat.add_comm 1 j]
        exact hok (j + 1) u hu)
      hfail (by rw [List.length_cons] at hn; omega)
    refine ⟨z, ?_, ?_, ?_⟩
    · rw [spawnFrom, ht, ← hz, ← hi]
    · rw [List.map_cons, run_cons, hstep]
      exact hr
    · rw [hpanes, List.mapIdx_cons, add, hi, List.append_assoc, List.singleton_append]
      simp only [Nat.add_zero, Nat.add_assoc, Nat.add_comm 1]

/-- **Which panes a failed spawn leaves closed.** One pane after the other is started, up to the
first that cannot be, and whatever else happens among and after the starts, nobody shuts the panes
down. Then spawn tells of the pane that could not be started and closes none of the others. Nobody
tells their loops to end. A terminal that was started is as it was, or was closed by its own task,
after its loops had come to their ends by themselves. So all terminals are closed iff all tasks are
that far. -/
theorem abandoned_iff {start : Nat → Except TerminalError Terminal} (command : String)
    {count : Nat} {cause : TerminalError} {steps : List Step}
    (hr : (opened policy batcher outlet).run steps = some y)
    (hs : ∀ s ∈ steps, s.isEnding = false)
    (hok : ∀ (i : Nat) (t : Terminal), (started steps)[i]? = some t → start i = .ok t)
    (hfail : start (started steps).length = .error cause)
    (hcount : (started steps).length < count) :
    (∃ z, PaneSet.spawn { batcher, outlet } start command count =
        (some ⟨idOf (started steps).length, command, cause⟩, z.set) ∧
      (opened policy batcher outlet).run ((started steps).map .spawn) = some z ∧
      z.set.panes = ((started steps).mapIdx fun i t => ⟨idOf i, t⟩) ∧
      ∀ t ∈ started steps, t.isClosed = false) ∧
    y.fired = false ∧
    (∀ (i : Nat) (t : Terminal), (started steps)[i]? = some t → ∃ w,
      y.workers[i]? = some w ∧ y.set.panes[i]? = some ⟨idOf i, w.leaves t⟩ ∧
      ((w.leaves t).isClosed = true ↔ w.stage.isLooping = false) ∧
      (w.stage.isLooping = false → w.readers.all Reader.hasEnded = true ∧
        ∃ o, w.loop.phase = .done o ∧ o ≠ .cancelled)) ∧
    ((∀ p ∈ y.set.panes, p.terminal.isClosed = true) ↔
      ∀ w ∈ y.workers, w.stage.isLooping = false) := by
  have h : y.Alone (started steps) := (Alone.opened_nil policy batcher outlet).run hs hr
  refine ⟨?_, h.fired, fun i t ht => ?_, h.all_closed_iff⟩
  · obtain ⟨z, hz, hzr, hpanes⟩ := spawnFrom_run (y := opened policy batcher outlet) (i := 0)
      command rfl rfl h.opened (fun j t ht => by rw [Nat.zero_add]; exact hok j t ht)
      (by rw [Nat.zero_add]; exact hfail) hcount
    rw [Nat.zero_add] at hz
    refine ⟨z, hz, hzr, ?_, h.opened⟩
    rw [hpanes]
    simp [opened]
  · obtain ⟨hlt, -⟩ := List.getElem?_eq_some_iff.mp ht
    have hw := List.getElem?_eq_getElem (l := y.workers) (i := i) (by rwa [h.counted])
    have hp := h.leaves i _ t hw ht
    refine ⟨_, hw, hp, h.isClosed_iff hw hp, fun hpast => ?_⟩
    exact (h.own _ (List.mem_of_getElem? hw)).ended hpast

/-- A program that says something after a while. -/
def late : Terminal :=
  .pipes (.ofBehaviour { command := "sh" }
    (.sleeps 2000 fun _ => .writes .output "late".toUTF8 fun _ => .done))

/-- There is a descriptor for one pane, and none for the next one. -/
def scarce : Nat → Except TerminalError Terminal
  | 0 => .ok late
  | _ => .error (.spawn "Too many open files (os error 24)")

/-- Both loops of a pane get into a read, and what the first one gets is handed on. -/
def reading : List Step :=
  [.spawn late, .duty 0 .start, .read 0 0 .ask, .read 0 1 .ask, .read 0 0 (.get "late".toUTF8),
    .read 0 0 .hand, .read 0 0 .ask]

/-- The first of three panes is not closed: its task is where it was. -/
theorem abandoned_iff_of_scarce : ∃ y, vacant.run reading = some y ∧ y.fired = false ∧
    (∃ s, PaneSet.spawn vacant.set scarce "sh" 3 = (some ⟨"%1", "sh",
      .spawn "Too many open files (os error 24)"⟩, s) ∧ s.panes = [⟨"%0", late⟩]) ∧
    ¬ ∀ p ∈ y.set.panes, p.terminal.isClosed = true := by
  have hloops : (vacant.run reading).map (fun y => y.workers.map fun w => w.stage.isLooping) =
    some [true] := by decide +kernel
  obtain ⟨y, hy, hyl⟩ := Option.map_eq_some_iff.mp hloops
  have hok : ∀ (i : Nat) (t : Terminal), [late][i]? = some t → scarce i = .ok t := by
    intro i t ht
    cases i with
    | zero => exact congrArg Except.ok (Option.some.inj ht)
    | succ i => cases ht
  obtain ⟨⟨z, hz, -, hpanes, -⟩, hfired, -, hall⟩ :=
    abandoned_iff "sh" hy (by decide) hok rfl (by decide : (started reading).length < 3)
  refine ⟨y, hy, hfired, ⟨z.set, hz, hpanes⟩, fun hclosed => ?_⟩
  obtain ⟨w, hw, hwl⟩ := List.mem_map.mp (hyl ▸ List.mem_singleton_self true)
  rw [hall.mp hclosed w hw] at hwl
  cases hwl

/-- **A pane is left running** by a spawn that fails. Its terminal is not closed, its loops are told
nothing, and what its program says later is handed on as if nothing had failed. -/
theorem left_running :
    (PaneSet.spawn vacant.set scarce "sh" 2).1 =
        some ⟨"%1", "sh", .spawn "Too many open files (os error 24)"⟩ ∧
      (PaneSet.spawn vacant.set scarce "sh" 2).2.panes.map (fun p => p.terminal.isClosed) =
        [false] ∧
      (vacant.run (reading ++ [.elapse 100])).map (fun y => (y.fired,
        y.set.panes.map fun p => p.terminal.isClosed, y.set.outlet.history "%0")) =
        some (false, [false], some "late".toUTF8) := by
  decide +kernel

end Yard

end PaneRelay.PaneSet
