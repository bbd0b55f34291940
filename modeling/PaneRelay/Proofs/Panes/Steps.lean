import PaneRelay.Daemon
import PaneRelay.Proofs.Runs
import PaneRelay.Supervisor

/-! # Panes at work

A pane is read by loops on threads of their own, one for each of its streams, and nothing interrupts
them: such a loop asks for the handle of its stream, is then in a read for as long as that takes,
and hands on what it got. A task looks after the pane. It starts the loops under supervision; when
that is over it closes the terminal and lets go of all that is kept for the pane, in single steps
between which anything may happen. A shutdown closes the terminals, fires the token that the tasks
listen to, and waits for the tasks.

* `Reader`, `Worker`, `Yard`: the loops, the tasks, and all of them together.
* `Yard.step`, `Yard.run`: what can happen, in any order.
* `retire_run`: the last steps of a task, with nothing in between, are `PaneSet.retire`.
* `Yard.Change`: all that a step can do.
* `Yard.Sound`: a terminal that was closed gives no handle, and once the token has fired all
  terminals are closed. -/

namespace PaneRelay

open Supervisor (Ending)

namespace Terminal

/-- How many streams a terminal is read from, each by a loop of its own. -/
def streams : Terminal → Nat
  | .native _ => 1
  | .pipes _ => 2

/-- Whether the handle of a stream is there. -/
def readable : Terminal → Nat → Bool
  | .native n, 0 => n.reader.live
  | .pipes p, 0 => p.stdout.live
  | .pipes p, 1 => p.stderr.live
  | _, _ => false

/-- Whether a terminal was closed. -/
def isClosed : Terminal → Bool
  | .native n => n.closed.isSome
  | .pipes p => p.closed.isSome

/-- A terminal gives no handle once it was closed. -/
def Sealed (t : Terminal) : Prop := t.isClosed = true → ∀ j, t.readable j = false

/-- Without its handle a stream is at its end. -/
theorem read_of_not_readable {t : Terminal} (h : t.readable 0 = false) (max : Nat) :
    t.read max = (.failed .closed, t) := by
  cases t with
  | native n =>
    have hv : n.reader.value = none := by simpa [readable, Handle.live] using h
    simp [read, Native.read, Handle.snapshot, hv]
  | pipes p =>
    have hv : p.stdout.value = none := by simpa [readable, Handle.live] using h
    simp [read, Pipes.read, Handle.snapshot, hv]

theorem isClosed_close (t : Terminal) : t.close.2.isClosed = true := by
  cases t with
  | native n =>
    show n.close.2.closed.isSome = true
    unfold Native.close
    split
    · next hc => simp [hc]
    · rfl
  | pipes p =>
    show p.close.2.closed.isSome = true
    unfold Pipes.close
    split
    · next hc => simp [hc]
    · rfl

theorem Sealed.close {t : Terminal} (h : t.Sealed) : t.close.2.Sealed := by
  intro _ j
  cases t with
  | native n =>
    show (Terminal.native n.close.2).readable j = false
    unfold Native.close
    split
    · next hc => exact h (by simp [isClosed, hc]) j
    · cases j <;> rfl
  | pipes p =>
    show (Terminal.pipes p.close.2).readable j = false
    unfold Pipes.close
    split
    · next hc => exact h (by simp [isClosed, hc]) j
    · rcases j with _ | _ | j <;> rfl

end Terminal

namespace PaneSet

/-! ### The loops -/

/-- **A loop that reads a stream.** -/
inductive Reader where
  /-- It is about to ask for the handle. -/
  | asks
  /-- It is in a read. -/
  | reads
  /-- It is about to hand a chunk on. -/
  | holds (chunk : ByteArray)
  /-- It has come to its end. -/
  | ended

/-- **What such a loop does.** -/
inductive Move where
  /-- It asks for the handle. -/
  | ask
  /-- The read brings a chunk. Whoever holds the stream may have written it, a process that the
  program has left behind as well as the program, so it is left open which chunk that is. -/
  | get (chunk : ByteArray)
  /-- The read finds the end of the stream, or fails. -/
  | halt
  /-- It hands its chunk on. -/
  | hand

/-- A loop after a move, given whether the handle is there. -/
def Reader.move (readable : Bool) : Reader → Move → Option Reader
  | .asks, .ask => some (if readable then .reads else .ended)
  | .reads, .get chunk => if chunk.isEmpty then none else some (.holds chunk)
  | .reads, .halt => some .ended
  | .holds _, .hand => some .asks
  | _, _ => none

/-- What a loop hands on. -/
def Reader.handed : Reader → Move → List ByteArray
  | .holds chunk, .hand => [chunk]
  | _, _ => []

/-- Whether a loop has come to its end. -/
def Reader.hasEnded : Reader → Bool
  | .ended => true
  | _ => false

/-! ### The tasks -/

/-- **How far a pane's task is.** -/
inductive Stage where
  /-- The loops are under supervision. -/
  | looping
  /-- The terminal was closed. -/
  | closed
  /-- The batcher has let the pane go. -/
  | released
  /-- The pane is not live any more; those that were live at that moment are known. -/
  | parted (live : List PaneId)
  /-- The batcher has let all others go. -/
  | thinned (live : List PaneId)
  /-- It is over. -/
  | done

/-- Whether a task is over. -/
def Stage.isDone : Stage → Bool
  | .done => true
  | _ => false

/-- **A pane's task**, with the loops that it started last. -/
structure Worker where
  /-- The supervision. -/
  loop : Supervisor.State
  /-- The loops. -/
  readers : List Reader := []
  /-- How far the task is. -/
  stage : Stage := .looping

/-- Whether the supervision is over. -/
def Worker.isIdle (w : Worker) : Bool :=
  match w.loop.phase with
  | .done _ => true
  | _ => false

/-- Whether an attempt is on. -/
def Worker.isRunning (w : Worker) : Bool :=
  match w.loop.phase with
  | .running _ => true
  | _ => false

/-- Whether a pause is on. -/
def Worker.isPausing (w : Worker) : Bool :=
  match w.loop.phase with
  | .pausing _ => true
  | _ => false

/-- **What a pane's task does.** -/
inductive Duty where
  /-- It starts the loops. -/
  | start
  /-- The loops have come to their ends. -/
  | join (e : Ending)
  /-- A pause is over. -/
  | resume
  /-- It sees that the token has fired, and waits for the loops no more. -/
  | notice
  /-- It closes the terminal. -/
  | close
  /-- It releases the pane from the batcher. -/
  | release
  /-- It takes the pane out of those that are live, and notes down the others. -/
  | part
  /-- It has the batcher keep those noted down. -/
  | thin
  /-- It has the histories of those noted down kept. -/
  | forget

/-- The name of a pane's loops. -/
def loopName (id : PaneId) : String := "pane-read " ++ id

/-! ### All together -/

/-- **How far a shutdown is.** -/
inductive Phase where
  /-- There is none. -/
  | up
  /-- The terminals are being closed. -/
  | closing
  /-- The token has fired. -/
  | waiting
  /-- It has returned. -/
  | returned
deriving DecidableEq

/-- **Panes at work.** -/
structure Yard where
  /-- How failed loops are restarted. -/
  policy : RestartPolicy
  /-- The panes, and where their output goes. -/
  set : PaneSet
  /-- The tasks, one for each pane. -/
  workers : List Worker := []
  /-- How far a shutdown is. -/
  phase : Phase := .up

/-- **What can happen.** -/
inductive Step where
  /-- One more pane is started, and its task with it. -/
  | spawn (t : Terminal)
  /-- A loop of a pane makes a move. -/
  | read (i j : Nat) (m : Move)
  /-- The task of a pane does something. -/
  | duty (i : Nat) (d : Duty)
  /-- Time passes. -/
  | elapse (ms : Nat)
  /-- Consumers come, go and speak. -/
  | outside (o : Hub.Outlet)
  /-- A shutdown begins. -/
  | shutdown
  /-- It closes a terminal. -/
  | shut (i : Nat)
  /-- It fires the token. -/
  | fire
  /-- It returns. -/
  | back
  /-- The batcher is stopped. -/
  | stop

namespace Yard

/-- Panes before any was started. -/
def opened (policy : RestartPolicy) (batcher : Batcher) (outlet : Hub.Outlet) : Yard :=
  { policy, set := { batcher, outlet } }

/-- The panes of a daemon before any was started. -/
def vacant : Yard :=
  let set := Daemon.emptySet {} { policy := .ofSection {} }
  opened (.ofSection {}) set.batcher set.outlet

/-- Whether the token has fired. -/
def fired (y : Yard) : Bool :=
  match y.phase with
  | .up | .closing => false
  | .waiting | .returned => true

/-- **A pane's task after one of its duties.** That the token has not fired is looked at some time
before the loops start, so it may have fired since. -/
def act (y : Yard) (p : Pane) (w : Worker) (d : Duty) : Option Worker :=
  match w.stage, d with
  | .looping, .start =>
    if w.loop.phase = .ready then
      some { w with loop := w.loop.begin y.set.batcher.now
                    readers := List.replicate p.terminal.streams .asks }
    else none
  | .looping, .join e =>
    if w.isRunning && w.readers.all Reader.hasEnded then
      some { w with loop := if y.fired then w.loop.cancel
                      else w.loop.finish y.policy (loopName p.id) y.set.batcher.now e }
    else none
  | .looping, .resume =>
    if w.isPausing then some { w with loop := w.loop.resume y.policy } else none
  | .looping, .notice =>
    if y.fired && !w.isIdle then some { w with loop := w.loop.cancel } else none
  | .looping, .close => if w.isIdle then some { w with stage := .closed } else none
  | .closed, .release => some { w with stage := .released }
  | .released, .part => some { w with stage := .parted (y.set.live.filter fun id => id ≠ p.id) }
  | .parted live, .thin => some { w with stage := .thinned live }
  | .thinned _, .forget => some { w with stage := .done }
  | _, _ => none

/-- **What a duty does to the panes.** -/
def effect (y : Yard) (p : Pane) (w : Worker) (d : Duty) : PaneSet :=
  match w.stage, d with
  | .looping, .close => y.set.withTerminal p.id p.terminal.close.2
  | .closed, .release => y.set.ask (.remove p.id)
  | .released, .part => { y.set with live := y.set.live.filter fun id => id ≠ p.id }
  | .parted live, .thin => y.set.ask (.retain live)
  | .thinned live, .forget =>
    { y.set with outlet := { y.set.outlet with fallback := y.set.outlet.fallback.retain live } }
  | _, _ => y.set

/-- **One step.** -/
def step (y : Yard) : Step → Option Yard
  | .spawn t =>
    if y.phase = .up ∧ t.isClosed = false then
      some { y with set := y.set.add (idOf y.workers.length) t
                    workers := y.workers ++ [{ loop := .fresh y.policy }] }
    else none
  | .read i j m => do
    let w ← y.workers[i]?
    let p ← y.set.panes[i]?
    let r ← w.readers[j]?
    let r' ← r.move (p.terminal.readable j) m
    some { y with set := y.set.write p.id (r.handed m)
                  workers := y.workers.set i { w with readers := w.readers.set j r' } }
  | .duty i d => do
    let w ← y.workers[i]?
    let p ← y.set.panes[i]?
    let w' ← y.act p w d
    some { y with set := y.effect p w d, workers := y.workers.set i w' }
  | .elapse ms => some { y with set := y.set.ask (.sleep ms) }
  | .outside outlet => some { y with set := { y.set with outlet } }
  | .shutdown => if y.phase = .up then some { y with phase := .closing } else none
  | .shut i => do
    let p ← y.set.panes[i]?
    if y.phase = .closing then
      some { y with set := y.set.withTerminal p.id p.terminal.close.2 }
    else none
  | .fire =>
    if y.phase = .closing ∧ y.set.panes.all (fun p => p.terminal.isClosed) then
      some { y with phase := .waiting }
    else none
  | .back =>
    if y.phase = .waiting ∧ y.workers.all (fun w => w.stage.isDone) then
      some { y with phase := .returned }
    else none
  | .stop => if y.phase = .returned then some { y with set := y.set.ask .stop } else none

/-- **Any number of steps.** -/
def run (y : Yard) (steps : List Step) : Option Yard := steps.foldlM step y

@[simp] theorem run_nil (y : Yard) : y.run [] = some y := rfl

@[simp] theorem run_cons (y : Yard) (s : Step) (steps : List Step) :
    y.run (s :: steps) = (y.step s).bind fun z => z.run steps := rfl

theorem run_append (y : Yard) (ss ss' : List Step) :
    y.run (ss ++ ss') = (y.run ss).bind fun z => z.run ss' := List.foldlM_append

theorem run_concat (y : Yard) (ss : List Step) (s : Step) :
    y.run (ss ++ [s]) = (y.run ss).bind fun z => z.step s := by
  rw [run_append]
  congr 1
  funext z
  exact bind_pure (z.step s)

/-- **What holds at first, and stays with every step**, holds after a run. -/
theorem run_induct {P : Yard → Prop} (hstep : ∀ y s z, P y → y.step s = some z → P z) {y z : Yard}
    {steps : List Step} (hy : P y) (hr : y.run steps = some z) : P z :=
  foldlM_induct hstep hy hr

variable {y z : Yard}

theorem step_read {i j : Nat} {m : Move} : y.step (.read i j m) = some z ↔
    ∃ w p r r', y.workers[i]? = some w ∧ y.set.panes[i]? = some p ∧ w.readers[j]? = some r ∧
      r.move (p.terminal.readable j) m = some r' ∧
      z = { y with set := y.set.write p.id (r.handed m)
                   workers := y.workers.set i { w with readers := w.readers.set j r' } } := by
  simp only [step, Option.bind_eq_bind, Option.bind_eq_some_iff, Option.some.injEq,
    eq_comm (a := z)]
  constructor
  · rintro ⟨w, hw, p, hp, r, hr, r', hm, hz⟩
    exact ⟨w, p, r, r', hw, hp, hr, hm, hz⟩
  · rintro ⟨w, p, r, r', hw, hp, hr, hm, hz⟩
    exact ⟨w, hw, p, hp, r, hr, r', hm, hz⟩

theorem step_duty {i : Nat} {d : Duty} : y.step (.duty i d) = some z ↔
    ∃ w p w', y.workers[i]? = some w ∧ y.set.panes[i]? = some p ∧ y.act p w d = some w' ∧
      z = { y with set := y.effect p w d, workers := y.workers.set i w' } := by
  simp only [step, Option.bind_eq_bind, Option.bind_eq_some_iff, Option.some.injEq,
    eq_comm (a := z)]
  constructor
  · rintro ⟨w, hw, p, hp, w', hm, hz⟩
    exact ⟨w, p, w', hw, hp, hm, hz⟩
  · rintro ⟨w, p, w', hw, hp, hm, hz⟩
    exact ⟨w, hw, p, hp, w', hm, hz⟩

end Yard

/-! ### What leaves the panes alone -/

@[simp] theorem ask_panes (s : PaneSet) (op : Batcher.Op) : (s.ask op).panes = s.panes := rfl

@[simp] theorem ask_live (s : PaneSet) (op : Batcher.Op) : (s.ask op).live = s.live := rfl

@[simp] theorem write_panes (s : PaneSet) (id : PaneId) (chunks : List ByteArray) :
    (s.write id chunks).panes = s.panes := by
  induction chunks generalizing s with
  | nil => rfl
  | cons c cs ih => exact (ih _).trans (ask_panes s _)

@[simp] theorem write_live (s : PaneSet) (id : PaneId) (chunks : List ByteArray) :
    (s.write id chunks).live = s.live := by
  induction chunks generalizing s with
  | nil => rfl
  | cons c cs ih => exact (ih _).trans (ask_live s _)

theorem withTerminal_get (s : PaneSet) (id : PaneId) (t : Terminal) (i : Nat) :
    (s.withTerminal id t).panes[i]? =
      (s.panes[i]?).map fun p => if p.id = id then { p with terminal := t } else p :=
  List.getElem?_map

theorem mem_withTerminal {s : PaneSet} {id : PaneId} {t : Terminal} {p : Pane}
    (h : p ∈ (s.withTerminal id t).panes) : p ∈ s.panes ∨ p.terminal = t := by
  obtain ⟨q, hq, rfl⟩ := List.mem_map.mp h
  split
  · exact .inr rfl
  · exact .inl hq

namespace Yard

/-! ### The last steps of a task -/

/-- The same with other panes, and another task for one of them. -/
def put (y : Yard) (s : PaneSet) (i : Nat) (w : Worker) : Yard :=
  { y with set := s, workers := y.workers.set i w }

theorem step_put {y : Yard} {s s' : PaneSet} {i : Nat} {w w' : Worker} {p : Pane} {d : Duty}
    (hlt : i < y.workers.length) (hp : s.panes[i]? = some p)
    (ha : (y.put s i w).act p w d = some w') (he : (y.put s i w).effect p w d = s') :
    (y.put s i w).step (.duty i d) = some (y.put s' i w') := by
  refine step_duty.mpr ⟨w, p, w', ?_, hp, ha, ?_⟩
  · simp [put, hlt]
  · rw [he]
    simp [put]

/-- **The last steps of a task**, with nothing in between, are what becomes of a pane whose output
has ended. -/
theorem retire_run {y : Yard} {i : Nat} {w : Worker} {p : Pane} (hw : y.workers[i]? = some w)
    (hp : y.set.panes[i]? = some p) (hs : w.stage = .looping) (hi : w.isIdle = true) :
    y.run [.duty i .close, .duty i .release, .duty i .part, .duty i .thin, .duty i .forget] =
      some (y.put (y.set.retire p) i { w with stage := .done }) := by
  have hlt : i < y.workers.length := (List.getElem?_eq_some_iff.mp hw).1
  let closed := y.set.withTerminal p.id p.terminal.close.2
  let released := closed.ask (.remove p.id)
  let live := y.set.live.filter fun id => id ≠ p.id
  let thinned := { released with live }.ask (.retain live)
  have hq : closed.panes[i]? = some { p with terminal := p.terminal.close.2 } := by
    rw [withTerminal_get, hp]
    simp
  have hclose : y.step (.duty i .close) = some (y.put closed i { w with stage := .closed }) :=
    step_duty.mpr ⟨w, p, { w with stage := .closed }, hw, hp, by simp [act, hs, hi],
      by simp [effect, hs, put, closed]⟩
  have hrelease : (y.put closed i { w with stage := .closed }).step (.duty i .release) =
      some (y.put released i { w with stage := .released }) := step_put hlt hq rfl rfl
  have hpart : (y.put released i { w with stage := .released }).step (.duty i .part) =
      some (y.put { released with live } i { w with stage := .parted live }) :=
    step_put hlt hq rfl rfl
  have hthin : (y.put { released with live } i { w with stage := .parted live }).step
      (.duty i .thin) = some (y.put thinned i { w with stage := .thinned live }) :=
    step_put hlt hq rfl rfl
  have hforget : (y.put thinned i { w with stage := .thinned live }).step (.duty i .forget) =
      some (y.put (y.set.retire p) i { w with stage := .done }) := step_put hlt hq rfl rfl
  simp only [run_cons, run_nil, hclose, hrelease, hpart, hthin, hforget, Option.bind_some]

/-! ### What a step does -/

/-- Terminals stay as they are, but for some that are closed. -/
def Closes (s s' : PaneSet) : Prop :=
  s'.panes.length = s.panes.length ∧
    ∀ p' ∈ s'.panes, ∃ p ∈ s.panes, p'.terminal = p.terminal ∨ p'.terminal = p.terminal.close.2

theorem closes_of_eq {s s' : PaneSet} (h : s'.panes = s.panes) : Closes s s' :=
  ⟨congrArg _ h, fun p hp => ⟨p, h ▸ hp, .inl rfl⟩⟩

theorem closes_withTerminal {s : PaneSet} {p : Pane} {i : Nat} (hp : s.panes[i]? = some p) :
    Closes s (s.withTerminal p.id p.terminal.close.2) := by
  refine ⟨List.length_map _, fun q hq => ?_⟩
  obtain hq | hq := mem_withTerminal hq
  · exact ⟨q, hq, .inl rfl⟩
  · exact ⟨p, List.mem_of_getElem? hp, .inr hq⟩

theorem closes_effect {y : Yard} {p : Pane} {i : Nat} (hp : y.set.panes[i]? = some p) (w : Worker)
    (d : Duty) : Closes y.set (y.effect p w d) := by
  unfold effect
  split
  · exact closes_withTerminal hp
  all_goals exact closes_of_eq rfl

/-- **What has nothing to do with the tasks**, nor with who is live. -/
structure Aside (y z : Yard) : Prop where
  workers : z.workers = y.workers
  live : z.set.live = y.set.live
  closes : Closes y.set z.set
  fired : z.fired = y.fired ∨ z.fired = true ∧ ∀ p ∈ z.set.panes, p.terminal.isClosed = true

/-- **All that a step can do.** -/
inductive Change (y : Yard) : Step → Yard → Prop where
  | spawn {t : Terminal} (hup : y.phase = .up) (ht : t.isClosed = false) :
    Change y (.spawn t) { y with set := y.set.add (idOf y.workers.length) t
                                 workers := y.workers ++ [{ loop := .fresh y.policy }] }
  | read {i j : Nat} {m : Move} {w : Worker} {p : Pane} {r r' : Reader}
    (hw : y.workers[i]? = some w) (hp : y.set.panes[i]? = some p) (hr : w.readers[j]? = some r)
    (hm : r.move (p.terminal.readable j) m = some r') :
    Change y (.read i j m)
      { y with set := y.set.write p.id (r.handed m)
               workers := y.workers.set i { w with readers := w.readers.set j r' } }
  | duty {i : Nat} {d : Duty} {w w' : Worker} {p : Pane} (hw : y.workers[i]? = some w)
    (hp : y.set.panes[i]? = some p) (ha : y.act p w d = some w') :
    Change y (.duty i d) { y with set := y.effect p w d, workers := y.workers.set i w' }
  | aside {s : Step} {z : Yard} (hs : ∀ i j m, s ≠ .read i j m) (h : Aside y z) : Change y s z

theorem step_change {y z : Yard} {s : Step} (hs : y.step s = some z) : Change y s z := by
  cases s with
  | spawn t =>
    obtain ⟨⟨hup, ht⟩, hz⟩ := Option.ite_none_right_eq_some.mp hs
    obtain rfl := Option.some.inj hz
    exact .spawn hup ht
  | read i j m =>
    obtain ⟨w, p, r, r', hw, hp, hr, hm, rfl⟩ := step_read.mp hs
    exact .read hw hp hr hm
  | duty i d =>
    obtain ⟨w, p, w', hw, hp, ha, rfl⟩ := step_duty.mp hs
    exact .duty hw hp ha
  | elapse ms =>
    obtain rfl := Option.some.inj hs
    exact .aside nofun ⟨rfl, rfl, closes_of_eq rfl, .inl rfl⟩
  | outside o =>
    obtain rfl := Option.some.inj hs
    exact .aside nofun ⟨rfl, rfl, closes_of_eq rfl, .inl rfl⟩
  | shutdown =>
    obtain ⟨hup, hz⟩ := Option.ite_none_right_eq_some.mp hs
    obtain rfl := Option.some.inj hz
    exact .aside nofun ⟨rfl, rfl, closes_of_eq rfl, .inl (by simp [fired, hup])⟩
  | shut i =>
    obtain ⟨p, hp, hs⟩ := Option.bind_eq_some_iff.mp hs
    obtain ⟨-, hz⟩ := Option.ite_none_right_eq_some.mp hs
    obtain rfl := Option.some.inj hz
    exact .aside nofun ⟨rfl, rfl, closes_withTerminal hp, .inl rfl⟩
  | fire =>
    obtain ⟨⟨-, hall⟩, hz⟩ := Option.ite_none_right_eq_some.mp hs
    obtain rfl := Option.some.inj hz
    exact .aside nofun ⟨rfl, rfl, closes_of_eq rfl, .inr ⟨rfl, List.all_eq_true.mp hall⟩⟩
  | back =>
    obtain ⟨⟨hph, -⟩, hz⟩ := Option.ite_none_right_eq_some.mp hs
    obtain rfl := Option.some.inj hz
    exact .aside nofun ⟨rfl, rfl, closes_of_eq rfl, .inl (by simp [fired, hph])⟩
  | stop =>
    obtain ⟨-, hz⟩ := Option.ite_none_right_eq_some.mp hs
    obtain rfl := Option.some.inj hz
    exact .aside nofun ⟨rfl, rfl, closes_of_eq rfl, .inl rfl⟩

/-! ### Closed terminals -/

/-- **What always holds:** each pane has its task, a terminal that was closed gives no handle, and
once the token has fired all terminals are closed. -/
structure Sound (y : Yard) : Prop where
  paired : y.set.panes.length = y.workers.length
  sealed : ∀ p ∈ y.set.panes, p.terminal.Sealed
  closed : y.fired = true → ∀ p ∈ y.set.panes, p.terminal.isClosed = true

theorem sound_opened (policy : RestartPolicy) (batcher : Batcher) (outlet : Hub.Outlet) :
    (opened policy batcher outlet).Sound :=
  ⟨rfl, fun _ hp => absurd hp List.not_mem_nil, fun _ _ hp => absurd hp List.not_mem_nil⟩

theorem Sound.exists_pane {y : Yard} (h : y.Sound) {i : Nat} {w : Worker}
    (hw : y.workers[i]? = some w) : ∃ p, y.set.panes[i]? = some p := by
  have hlt : i < y.set.panes.length := by
    rw [h.paired]
    exact (List.getElem?_eq_some_iff.mp hw).1
  exact ⟨_, List.getElem?_eq_getElem hlt⟩

/-- Terminals that are closed change nothing in that. -/
theorem Sound.closes {y z : Yard} (h : y.Sound) (hc : Closes y.set z.set)
    (hl : z.workers.length = y.workers.length) (hf : z.fired = y.fired ∨
      z.fired = true ∧ ∀ p ∈ z.set.panes, p.terminal.isClosed = true) : z.Sound := by
  refine ⟨by rw [hc.1, hl, h.paired], fun p hp => ?_, fun hz p hp => ?_⟩
  · obtain ⟨q, hq, he | he⟩ := hc.2 p hp
    · exact he ▸ h.sealed q hq
    · exact he ▸ (h.sealed q hq).close
  · obtain hsame | ⟨-, hall⟩ := hf
    · obtain ⟨q, hq, he | he⟩ := hc.2 p hp
      · exact he ▸ h.closed (hsame.symm.trans hz) q hq
      · exact he ▸ q.terminal.isClosed_close
    · exact hall p hp

theorem Sound.step {y z : Yard} (h : y.Sound) {s : Step} (hs : y.step s = some z) : z.Sound := by
  cases step_change hs with
  | @spawn t hup ht =>
    have hf : y.fired = false := by simp [fired, hup]
    refine ⟨by simp [add, h.paired], fun p hp => ?_,
      fun hz => absurd (hf.symm.trans hz) (by decide)⟩
    obtain hp | hp := List.mem_append.mp hp
    · exact h.sealed p hp
    · obtain rfl := List.mem_singleton.mp hp
      exact fun hc => absurd (ht.symm.trans hc) (by decide)
  | read => exact h.closes (closes_of_eq (write_panes ..)) (List.length_set ..) (.inl rfl)
  | duty _ hp => exact h.closes (closes_effect hp _ _) (List.length_set ..) (.inl rfl)
  | aside _ ha => exact h.closes ha.closes (congrArg _ ha.workers) ha.fired

theorem Sound.run {y z : Yard} (h : y.Sound) {steps : List Step} (hr : y.run steps = some z) :
    z.Sound :=
  run_induct (fun _ _ _ hy hs => hy.step hs) h hr

end Yard

end PaneSet

end PaneRelay
