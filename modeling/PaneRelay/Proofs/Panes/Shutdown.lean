import Mathlib.Algebra.Ring.Nat
import PaneRelay.Proofs.Hub.Payback
import PaneRelay.Proofs.Panes.Steps

/-! # What a shutdown does not wait for

A shutdown waits for the tasks, and a task whose token has fired waits for its loops no more. So a
loop that is in a read when the token fires, or has something in its hand, goes on by itself, and
hands on what it gets whenever that comes. It does so once at most, for it gets no handle again.

* `Yard.out`: how many loops are in a read or have something in their hands.
* `out_step`: once the token has fired that number only falls, by one for each chunk handed on.
* `tasks_end`: the tasks come to their ends without any loop.
* `loops_go_on`: the loops come to hand on what they can.
* `late_hands_iff`: how many chunks may be handed on after a shutdown has returned.
* `late_output`: one that is. -/

namespace PaneRelay.PaneSet

/-! ### Loops that are out -/

/-- Whether a loop is in a read or has something in its hand, as a number. -/
def Reader.out : Reader → Nat
  | .reads | .holds _ => 1
  | .asks | .ended => 0

/-- How many loops of a task are in a read or have something in their hands. -/
def Worker.out (w : Worker) : Nat := (w.readers.map Reader.out).sum

/-- Whether a move hands something on, as a number. -/
def Move.hands : Move → Nat
  | .hand => 1
  | _ => 0

/-- Whether a step hands something on, as a number. -/
def Step.hands : Step → Nat
  | .read _ _ m => m.hands
  | _ => 0

theorem sum_map_set {α : Type} (f : α → Nat) {l : List α} {i : Nat} {a : α} (b : α)
    (h : l[i]? = some a) : ((l.set i b).map f).sum + f a = (l.map f).sum + f b := by
  induction l generalizing i with
  | nil => simp at h
  | cons c l ih =>
    cases i with
    | zero =>
      obtain rfl : c = a := by simpa using h
      simp only [List.set_cons_zero, List.map_cons, List.sum_cons]
      omega
    | succ i =>
      have := ih (i := i) (by simpa using h)
      simp only [List.set_cons_succ, List.map_cons, List.sum_cons]
      omega

/-- Without a handle a loop does not go out again, and is in when it has handed on what it had. -/
theorem Reader.out_move {r r' : Reader} {m : Move} (h : r.move false m = some r') :
    r'.out + m.hands ≤ r.out := by
  unfold Reader.move at h
  split at h
  · obtain rfl := Option.some.inj h
    decide
  · obtain ⟨-, h⟩ := Option.ite_none_left_eq_some.mp h
    obtain rfl := Option.some.inj h
    exact Nat.le_refl 1
  · obtain rfl := Option.some.inj h
    decide
  · obtain rfl := Option.some.inj h
    exact Nat.le_refl 1
  · exact absurd h (by simp)

namespace Yard

/-- **How many loops are out:** in a read, or with something in their hands. -/
def out (y : Yard) : Nat := (y.workers.map Worker.out).sum

/-- **How many chunks are handed on.** -/
def hands (steps : List Step) : Nat := (steps.map Step.hands).sum

variable {y z : Yard}

/-- A move of a loop counts for what the loop is before and after it. -/
theorem out_read {i j : Nat} {w : Worker} {r : Reader} (s : PaneSet) (r' : Reader)
    (hw : y.workers[i]? = some w) (hr : w.readers[j]? = some r) :
    ({ y with set := s
              workers := y.workers.set i { w with readers := w.readers.set j r' } } : Yard).out +
      r.out = y.out + r'.out := by
  have hy := sum_map_set Worker.out { w with readers := w.readers.set j r' } hw
  have hwo : Worker.out { w with readers := w.readers.set j r' } + r.out = w.out + r'.out :=
    sum_map_set Reader.out r' hr
  unfold out
  dsimp only
  omega

/-- A task leaves its loops alone, or starts new ones, which all have to ask for their handles. -/
theorem readers_act {p : Pane} {w w' : Worker} {d : Duty} (h : y.act p w d = some w') :
    w'.readers = w.readers ∨ w'.readers = List.replicate p.terminal.streams .asks := by
  unfold act at h
  split at h <;> grind

theorem out_act {p : Pane} {w w' : Worker} {d : Duty} (h : y.act p w d = some w') :
    w'.out ≤ w.out := by
  obtain hr | hr := readers_act h
  · exact Nat.le_of_eq (congrArg (fun rs => (rs.map Reader.out).sum) hr)
  · simp [Worker.out, hr, Reader.out]

/-- **Once the token has fired**, the loops that are out only come in, one for each chunk handed
on. -/
theorem out_step (h : y.Sound) (hf : y.fired = true) {s : Step} (hs : y.step s = some z) :
    z.fired = true ∧ z.out + s.hands ≤ y.out := by
  cases step_change hs with
  | spawn hup => simp [fired, hup] at hf
  | @read i j m w p r r' hw hp hr hm =>
    -- all terminals are closed, so nobody gets a handle
    have hmem : p ∈ y.set.panes := List.mem_of_getElem? hp
    rw [h.sealed p hmem (h.closed hf p hmem) j] at hm
    have hout := Reader.out_move hm
    have hsum := out_read (y.set.write p.id (r.handed m)) r' hw hr
    refine ⟨hf, ?_⟩
    show _ + m.hands ≤ _
    omega
  | @duty i d w w' p hw hp ha =>
    have hsum := sum_map_set Worker.out w' hw
    have hout := out_act ha
    refine ⟨hf, ?_⟩
    show (List.map Worker.out (y.workers.set i w')).sum ≤ (y.workers.map Worker.out).sum
    omega
  | aside hs ha =>
    have hhands : s.hands = 0 := by
      cases s with
      | read i j m => exact absurd rfl (hs i j m)
      | _ => rfl
    refine ⟨?_, ?_⟩
    · obtain hz | ⟨hz, -⟩ := ha.fired
      · exact hz.trans hf
      · exact hz
    · unfold out
      rw [ha.workers, hhands]
      exact Nat.le_refl _

theorem out_run (h : y.Sound) (hf : y.fired = true) {steps : List Step}
    (hr : y.run steps = some z) : z.fired = true ∧ z.out + hands steps ≤ y.out := by
  induction steps generalizing y with
  | nil =>
    obtain rfl : y = z := by simpa using hr
    exact ⟨hf, Nat.le_refl _⟩
  | cons s steps ih =>
    obtain ⟨u, hu, hr⟩ := Option.bind_eq_some_iff.mp hr
    obtain ⟨hfu, hle⟩ := out_step h hf hu
    obtain ⟨hfz, hle'⟩ := ih (h.step hu) hfu hr
    refine ⟨hfz, ?_⟩
    have hcons : hands (s :: steps) = s.hands + hands steps := List.sum_cons
    omega

end Yard

/-! ### The tasks come to their ends -/

/-- How many duties a task still has, once the token has fired. -/
def Worker.left (w : Worker) : Nat :=
  match w.stage with
  | .looping => if w.isIdle then 5 else 6
  | .closed => 4
  | .released => 3
  | .parted _ => 2
  | .thinned _ => 1
  | .done => 0

theorem isDone_of_left {w : Worker} (h : w.left = 0) : w.stage.isDone = true := by
  unfold Worker.left at h
  cases hs : w.stage with
  | done => rfl
  | looping =>
    rw [hs] at h
    dsimp only at h
    split at h <;> cases h
  | closed | released | parted | thinned => simp [hs] at h

theorem isIdle_cancel (w : Worker) : Worker.isIdle { w with loop := w.loop.cancel } = true := by
  unfold Worker.isIdle Supervisor.State.cancel
  cases hp : w.loop.phase <;> simp [hp]

namespace Yard

variable {y z : Yard}

/-- **A task always has a next duty**, for which it needs none of its loops. -/
theorem exists_duty (hf : y.fired = true) (p : Pane) {w : Worker} (hw : w.left ≠ 0) :
    ∃ d w', y.act p w d = some w' ∧ w'.left < w.left ∧ w'.readers = w.readers := by
  cases hs : w.stage with
  | looping =>
    cases hi : w.isIdle with
    | true =>
      exact ⟨.close, { w with stage := .closed }, by simp [act, hs, hi],
        by simp [Worker.left, hs, hi], rfl⟩
    | false =>
      refine ⟨.notice, { w with loop := w.loop.cancel }, by simp [act, hs, hi, hf], ?_, rfl⟩
      have hc := isIdle_cancel w
      rw [hs] at hc
      simp [Worker.left, hs, hi, hc]
  | closed =>
    exact ⟨.release, { w with stage := .released }, by simp [act, hs],
      by simp [Worker.left, hs], rfl⟩
  | released =>
    exact ⟨.part, { w with stage := .parted (y.set.live.filter fun id => id ≠ p.id) },
      by simp [act, hs], by simp [Worker.left, hs], rfl⟩
  | parted live =>
    exact ⟨.thin, { w with stage := .thinned live }, by simp [act, hs],
      by simp [Worker.left, hs], rfl⟩
  | thinned live =>
    exact ⟨.forget, { w with stage := .done }, by simp [act, hs], by simp [Worker.left, hs], rfl⟩
  | done => simp [Worker.left, hs] at hw

/-- **The tasks come to their ends**, and the loops are where they were. -/
theorem tasks_end (h : y.Sound) (hf : y.fired = true) : ∃ steps z, y.run steps = some z ∧
    z.phase = y.phase ∧ z.out = y.out ∧ ∀ w ∈ z.workers, w.left = 0 := by
  -- each duty leaves fewer to do, and there is one for every task that is not over
  induction hn : (y.workers.map Worker.left).sum using Nat.strongRecOn generalizing y with
  | ind n ih =>
    by_cases hall : ∀ w ∈ y.workers, w.left = 0
    · exact ⟨[], y, rfl, rfl, rfl, hall⟩
    · simp only [Classical.not_forall] at hall
      obtain ⟨w, hw, hleft⟩ := hall
      obtain ⟨i, hi⟩ := List.getElem?_of_mem hw
      obtain ⟨p, hpane⟩ := h.exists_pane hi
      obtain ⟨d, w', ha, hless, hreaders⟩ := exists_duty hf p hleft
      have hs := step_duty.mpr ⟨w, p, w', hi, hpane, ha, rfl⟩
      have hsum := sum_map_set Worker.left w' hi
      obtain ⟨steps, z, hr, hp, ho, hz⟩ := ih _ (by simp only; omega) (h.step hs) hf rfl
      refine ⟨.duty i d :: steps, z, ?_, hp, ho.trans ?_, hz⟩
      · rw [run_cons, hs, Option.bind_some, hr]
      · have hout := sum_map_set Worker.out w' hi
        have hsame : w'.out = w.out := congrArg (fun rs => (rs.map Reader.out).sum) hreaders
        unfold out
        simp only
        omega

/-- **A shutdown returns**, and the loops are where they were. -/
theorem returns (h : y.Sound) (hf : y.fired = true) : ∃ steps z, y.run steps = some z ∧
    z.phase = .returned ∧ z.out = y.out := by
  cases hp : y.phase with
  | up | closing => simp [fired, hp] at hf
  | returned => exact ⟨[], y, rfl, hp, rfl⟩
  | waiting =>
    obtain ⟨steps, z, hr, hz, ho, hall⟩ := tasks_end h hf
    have hdone : z.workers.all (fun w => w.stage.isDone) = true :=
      List.all_eq_true.mpr fun w hw => isDone_of_left (hall w hw)
    refine ⟨steps ++ [.back], { z with phase := .returned }, ?_, rfl, ho⟩
    rw [run_concat, hr, Option.bind_some]
    exact if_pos ⟨hz.trans hp, hdone⟩

/-! ### The loops go on -/

theorem exists_out (h : 0 < y.out) : ∃ (i : Nat) (w : Worker) (j : Nat) (r : Reader),
    y.workers[i]? = some w ∧ w.readers[j]? = some r ∧ 0 < r.out := by
  obtain ⟨n, hn, hpos⟩ := List.sum_pos_iff_exists_pos_nat.mp h
  obtain ⟨w, hw, rfl⟩ := List.mem_map.mp hn
  obtain ⟨m, hm, hpos⟩ := List.sum_pos_iff_exists_pos_nat.mp hpos
  obtain ⟨r, hr, rfl⟩ := List.mem_map.mp hm
  obtain ⟨i, hi⟩ := List.getElem?_of_mem hw
  obtain ⟨j, hj⟩ := List.getElem?_of_mem hr
  exact ⟨i, w, j, r, hi, hj, hpos⟩

/-- A loop with something in its hand hands it on. -/
theorem hand_on {i j : Nat} {w : Worker} {p : Pane} {c : ByteArray}
    (hw : y.workers[i]? = some w) (hp : y.set.panes[i]? = some p)
    (hr : w.readers[j]? = some (.holds c)) :
    ∃ z, y.step (.read i j .hand) = some z ∧ z.out + 1 = y.out :=
  ⟨_, step_read.mpr ⟨w, p, .holds c, .asks, hw, hp, hr, rfl, rfl⟩, out_read _ .asks hw hr⟩

/-- **A loop that is out comes to hand something on.** -/
theorem one_goes_on (h : y.Sound) (ho : 0 < y.out) :
    ∃ steps z, y.run steps = some z ∧ hands steps = 1 ∧ z.out + 1 = y.out := by
  obtain ⟨i, w, j, r, hw, hr, hpos⟩ := exists_out ho
  obtain ⟨p, hp⟩ := h.exists_pane hw
  cases r with
  | asks | ended => exact absurd hpos (by decide)
  | holds c =>
    obtain ⟨z, hz, hout⟩ := hand_on hw hp hr
    exact ⟨[.read i j .hand], z, by rw [run_cons, hz]; rfl, rfl, hout⟩
  | reads =>
    -- the read brings something first
    let c := "x".toUTF8
    let w' : Worker := { w with readers := w.readers.set j (.holds c) }
    let u : Yard := { y with workers := y.workers.set i w' }
    have hget : y.step (.read i j (.get c)) = some u :=
      step_read.mpr ⟨w, p, .reads, .holds c, hw, hp, hr, rfl, rfl⟩
    have hwlt := (List.getElem?_eq_some_iff.mp hw).1
    have hrlt := (List.getElem?_eq_some_iff.mp hr).1
    have hout : u.out + 1 = y.out + 1 := out_read y.set (.holds c) hw hr
    obtain ⟨z, hz, hz'⟩ := hand_on (y := u) (j := j) (w := w') (c := c)
      (by simp [u, hwlt]) hp (by simp [w', hrlt])
    refine ⟨[.read i j (.get c), .read i j .hand], z, ?_, rfl, hz'.trans (by omega)⟩
    rw [run_cons, hget, Option.bind_some, run_cons, hz]
    rfl

theorem hands_append (ss ss' : List Step) : hands (ss ++ ss') = hands ss + hands ss' := by
  simp [hands]

/-- **The loops that are out come to hand on what they can**, any number of them. -/
theorem loops_go_on {n : Nat} (h : y.Sound) (hn : n ≤ y.out) :
    ∃ steps z, y.run steps = some z ∧ hands steps = n := by
  induction n generalizing y with
  | zero => exact ⟨[], y, rfl, rfl⟩
  | succ n ih =>
    obtain ⟨ss, u, hu, hone, hout⟩ := one_goes_on h (Nat.lt_of_lt_of_le n.succ_pos hn)
    obtain ⟨ss', z, hz, hrest⟩ := ih (h.run hu) (by omega)
    refine ⟨ss ++ ss', z, ?_, ?_⟩
    · rw [run_append, hu, Option.bind_some, hz]
    · rw [hands_append, hone, hrest, Nat.add_comm]

variable {policy : RestartPolicy} {batcher : Batcher} {outlet : Hub.Outlet}

/-- **How many chunks may be handed on after a shutdown has returned:** as many as loops were in a
read, or had something in their hands, when the token had fired, and no more. -/
theorem late_hands_iff {steps : List Step} (hr : (opened policy batcher outlet).run steps = some y)
    (hf : y.fired = true) (n : Nat) :
    (∃ before u after z, y.run before = some u ∧ u.phase = .returned ∧ u.run after = some z ∧
      hands after = n) ↔ n ≤ y.out := by
  have h : y.Sound := (sound_opened policy batcher outlet).run hr
  constructor
  · rintro ⟨before, u, after, z, hu, -, hz, rfl⟩
    obtain ⟨hfu, hle⟩ := out_run h hf hu
    obtain ⟨-, hle'⟩ := out_run (h.run hu) hfu hz
    omega
  · intro hn
    obtain ⟨before, u, hu, hp, hout⟩ := returns h hf
    obtain ⟨after, z, hz, hn⟩ := loops_go_on (h.run hu) (hout.symm ▸ hn)
    exact ⟨before, u, after, z, hu, hp, hz, hn⟩

/-- A shell that waits for a process that it has started. It is killed when its pane is closed. -/
def shell : Terminal :=
  .pipes (.ofBehaviour { command := "sh" } (.sleeps 2000 fun _ => .done))

/-- That process. It has the streams of the shell, and says something after a while; nobody ends it
before. -/
def helper : Child := { life := .sleeps 2000 fun _ => .writes .output "late".toUTF8 fun _ => .done }

/-- What a read of their output waits for. -/
def helperOutput : ByteArray := (helper.await .output).ports.output

/-- Both loops are in a read when the token fires. -/
def firing : List Step :=
  [.spawn shell, .duty 0 .start, .read 0 0 .ask, .read 0 1 .ask, .shutdown, .shut 0, .fire]

/-- Two chunks may come after that shutdown. -/
theorem two_hands_late : ∃ y before u after z, vacant.run firing = some y ∧
    y.run before = some u ∧ u.phase = .returned ∧ u.run after = some z ∧ hands after = 2 := by
  have hfired : (vacant.run firing).map (fun y => (y.fired, y.out)) = some (true, 2) := by
    decide +kernel
  obtain ⟨y, hy, hyf⟩ := Option.map_eq_some_iff.mp hfired
  obtain ⟨hf, hout⟩ := Prod.mk.inj hyf
  obtain ⟨before, u, after, z, h⟩ := (late_hands_iff hy hf 2).mpr hout.ge
  exact ⟨y, before, u, after, z, hy, h⟩

/-- The task notices, does the rest, and the shutdown returns. The batcher is stopped. -/
def returning : List Step :=
  [.duty 0 .notice, .duty 0 .close, .duty 0 .release, .duty 0 .part, .duty 0 .thin, .duty 0 .forget,
    .back, .stop]

/-- **A chunk is handed on after a shutdown has returned** and the batcher was stopped. The shell
was killed, and the read brings what its process says two seconds later. It becomes the history of a
pane that has gone. -/
theorem late_output :
    (vacant.run (firing ++ returning)).map (fun y => (y.phase, y.set.outlet.history "%0",
        y.set.panes.map fun p => p.terminal.child.hasEnded)) = some (.returned, none, [true]) ∧
      helper.settle.hasEnded = false ∧
      (vacant.run (firing ++ returning ++
          [.elapse 2000, .read 0 0 (.get helperOutput), .read 0 0 .hand])).map
        (fun y => y.set.outlet.history "%0") = some (some "late".toUTF8) := by
  decide +kernel

end Yard

end PaneRelay.PaneSet
