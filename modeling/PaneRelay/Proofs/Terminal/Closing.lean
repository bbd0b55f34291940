import Mathlib
import PaneRelay.Proofs.Batcher.Chunks
import PaneRelay.Proofs.Panes.Steps

/-! # Closing in single steps, while a read loop is at work

A program on pipes goes on by itself, the two loops of a read loop read its outputs, and a closing
takes the handles away one after another. Each of them does one thing at a time, and between two
things that one of them does anything may happen. The closing looked at is one whose wait finds that
the program has ended by itself.

* `Child.advance`: the next thing that a program does.
* `Scene`: the program, its handles, the loops, and how far the closing is.
* `Scene.step`, `Scene.run`: what can happen, in any order.
* `run_acts`, `run_close`, `run_read`: with nothing in between, the steps are the operations.
* `Scene.Change`: all that a step can do. -/

namespace PaneRelay

open Child (Stream Behaviour Ports)
open PaneSet (Reader Move)

namespace Child

/-! ### A program, one thing at a time -/

/-- **The next thing that a program does**, unless it has ended or waits for input. -/
def advance (c : Child) : Option Child :=
  match c.life with
  | .ends _ => none
  | .writes s data next => some { c with life := next (), ports := c.ports.write s data }
  | .reads next =>
    match c.ports.input with
    | x :: rest => some { c with life := next x, ports := { c.ports with input := rest } }
    | [] => if c.ports.inputEnded then some { c with life := next none } else none
  | .sleeps ms next =>
    some { c with life := next (), ports := { c.ports with slept := c.ports.slept + ms } }
  | .asks next => some { c with life := next c.ports.screen }
  | .closes s next =>
    some { c with life := next (), ports := { c.ports with givenUp := s :: c.ports.givenUp } }

/-- What a program writes to a stream with the next thing that it does. -/
def utters (c : Child) (s : Stream) : ByteArray :=
  match c.life with
  | .writes t data _ => if t = s then data else ByteArray.empty
  | _ => ByteArray.empty

/-- **So many things** that a program does, one after another. -/
def advances (c : Child) : Nat → Option Child
  | 0 => some c
  | n + 1 => c.advance.bind fun c => c.advances n

variable {c c' : Child}

theorem advance_of_hasEnded (h : c.hasEnded = true) : c.advance = none := by
  unfold hasEnded Behaviour.hasEnded at h
  unfold advance
  split at h
  · next hl => rw [hl]
  · cases h

theorem exists_advances_of {waits : Ports → Nat → Bool} (hc : c.advance = some c')
    (hp : c.proceed waits = c'.proceed waits)
    (h : ∃ n, c'.advances n = some (c'.proceed waits)) :
    ∃ n, c.advances n = some (c.proceed waits) := by
  obtain ⟨n, hn⟩ := h
  exact ⟨n + 1, by rw [advances, hc, Option.bind_some, hn, hp]⟩

/-- **What a program does by itself** is some number of things, however long it is waited for. -/
theorem exists_advances (c : Child) (waits : Ports → Nat → Bool) :
    ∃ n, c.advances n = some (c.proceed waits) := by
  obtain ⟨life, ports, pid⟩ := c
  induction life generalizing ports with
  | ends status => exact ⟨0, rfl⟩
  | writes s data next ih => exact exists_advances_of rfl rfl (ih () _)
  | asks next ih => exact exists_advances_of rfl rfl (ih _ _)
  | closes s next ih => exact exists_advances_of rfl rfl (ih () _)
  | sleeps ms next ih =>
    by_cases hw : (ms = 0 || waits ports ms) = true
    · refine exists_advances_of rfl ?_ (ih () _)
      unfold proceed
      rw [Behaviour.run, if_pos hw]
    · refine ⟨0, ?_⟩
      unfold proceed
      rw [Behaviour.run, if_neg hw]
      rfl
  | reads next ih =>
    obtain ⟨input, ended, output, complaint, givenUp, screen, slept⟩ := ports
    match input, ended with
    | x :: rest, _ => exact exists_advances_of rfl rfl (ih x _)
    | [], true => exact exists_advances_of rfl rfl (ih none _)
    | [], false => exact ⟨0, rfl⟩

/-- The input is at its end, and the program has not noticed yet. -/
def cutInput (c : Child) : Child := { c with ports := { c.ports with inputEnded := true } }

/-! ### What lies between -/

/-- A program that reads goes on with what it gets, and with less input. -/
theorem advance_reads {next : Option UInt8 → Behaviour} {ports : Ports} {pid : Nat}
    (h : ({ life := .reads next, ports, pid } : Child).advance = some c') :
    ∃ x input, c' = { life := next x, ports := { ports with input }, pid } := by
  unfold advance at h
  dsimp only at h
  split at h
  · next x rest hi => exact ⟨x, rest, (Option.some.inj h).symm⟩
  · obtain ⟨-, h⟩ := Option.ite_none_right_eq_some.mp h
    exact ⟨none, ports.input, (Option.some.inj h).symm⟩

theorem pending_advance (h : c.advance = some c') {s : Stream} (hs : s ≠ .input) :
    c'.ports.pending s = c.ports.pending s ++ c.utters s := by
  obtain ⟨life, ports, pid⟩ := c
  cases life with
  | ends status => cases h
  | writes t data next =>
    obtain rfl := Option.some.inj h
    cases s <;> cases t <;> simp_all [utters, Ports.pending, Ports.write]
  | reads next =>
    obtain ⟨x, input, rfl⟩ := advance_reads h
    cases s <;> exact ByteArray.append_empty.symm
  | sleeps | asks | closes =>
    obtain rfl := Option.some.inj h
    cases s <;> exact ByteArray.append_empty.symm

/-- A stream that was given up stays so. -/
theorem givenUp_advance (h : c.advance = some c') : c.ports.givenUp ⊆ c'.ports.givenUp := by
  obtain ⟨life, ports, pid⟩ := c
  cases life with
  | ends status => cases h
  | writes t data next =>
    obtain rfl := Option.some.inj h
    cases t <;> exact List.Subset.refl _
  | reads next =>
    obtain ⟨x, input, rfl⟩ := advance_reads h
    exact List.Subset.refl _
  | sleeps | asks =>
    obtain rfl := Option.some.inj h
    exact List.Subset.refl _
  | closes t next =>
    obtain rfl := Option.some.inj h
    exact List.subset_cons_self ..

/-- What is taken from a stream is the beginning of what is there. -/
theorem take_append (c : Child) (s : Stream) (max : Nat) :
    (c.take s max).1 ++ (c.take s max).2.ports.pending s = c.ports.pending s := by
  have halves (data : ByteArray) : data.extract 0 max ++ data.extract max data.size = data := by
    ext1
    simp
  cases s with
  | input => rfl
  | output => exact halves _
  | complaint => exact halves _

theorem size_take (c : Child) (s : Stream) (max : Nat) :
    (c.take s max).1.size = min max (c.ports.pending s).size := by
  cases s <;> simp [take, Ports.take, Ports.pending]

/-- Something is taken if something is there. -/
theorem take_isEmpty_iff (c : Child) (s : Stream) {max : Nat} (hm : max ≠ 0) :
    (c.take s max).1.isEmpty = true ↔ (c.ports.pending s).isEmpty = true := by
  rw [Batcher.isEmpty_iff, Batcher.isEmpty_iff, ← ByteArray.size_eq_zero_iff,
    ← ByteArray.size_eq_zero_iff, size_take]
  omega

/-- Asking for no more than what comes makes no difference. -/
theorem take_size_take (c : Child) (s : Stream) (max : Nat) :
    c.take s (c.take s max).1.size = c.take s max := by
  have head (data : ByteArray) : data.extract 0 (min max data.size) = data.extract 0 max := by
    ext1
    simp only [ByteArray.data_extract, ← ByteArray.size_data]
    grind
  have rest (data : ByteArray) :
      data.extract (min max data.size) data.size = data.extract max data.size := by
    ext1
    simp only [ByteArray.data_extract, ← ByteArray.size_data]
    grind
  rw [size_take]
  cases s <;> simp only [take, Ports.take, Ports.pending, head, rest]

theorem pending_take (c : Child) {s t : Stream} (h : t ≠ s) (max : Nat) :
    (c.take s max).2.ports.pending t = c.ports.pending t := by
  cases s <;> cases t <;> first | rfl | exact absurd rfl h

end Child

namespace Terminal

/-! ### The scene -/

/-- **The sides of a program that are read**, each by a loop of its own. -/
inductive Side where
  /-- Its output. -/
  | output
  /-- Its complaints. -/
  | complaint
deriving DecidableEq

/-- The stream of a side. -/
def Side.stream : Side → Stream
  | .output => .output
  | .complaint => .complaint

theorem Side.stream_ne_input (s : Side) : s.stream ≠ .input := by cases s <;> decide

theorem Side.stream_ne {s t : Side} (h : t ≠ s) : t.stream ≠ s.stream := by
  cases s <;> cases t <;> first | decide | exact absurd rfl h

/-- The handle of a side. -/
def Pipes.handle (p : Pipes) : Side → Handle Stream
  | .output => p.stdout
  | .complaint => p.stderr

/-- **How far a closing is.** -/
inductive Stage where
  /-- It has not begun. -/
  | up
  /-- The input has ended; the program is waited for. -/
  | detached
  /-- The program was seen to have ended. -/
  | seen
  /-- The handle of the output is gone. -/
  | half
  /-- It is over. -/
  | closed
deriving DecidableEq

/-- How many steps of a closing are left. -/
def Stage.left : Stage → Nat
  | .up => 4
  | .detached => 3
  | .seen => 2
  | .half => 1
  | .closed => 0

/-- **A loop at work.** -/
structure Loop where
  /-- Where it is. -/
  reader : Reader := .asks
  /-- What its reads have returned. -/
  results : List (Except TerminalError ByteArray) := []
  /-- What it has handed on. -/
  handed : List ByteArray := []

/-- **A program on pipes that is read and closed.** -/
structure Scene where
  /-- The program and the handles. -/
  pipes : Pipes
  /-- The two loops. -/
  loops : Side → Loop := fun _ => {}
  /-- What the program has written to either side. -/
  said : Side → ByteArray := fun _ => ByteArray.empty
  /-- How far the closing is. -/
  stage : Stage := .up

namespace Scene

/-- **What can happen.** -/
inductive Step where
  /-- The program does the next thing. -/
  | act
  /-- The loop of a side makes a move. -/
  | read (s : Side) (m : Move)
  /-- The closing goes on. -/
  | shut

/-- A program just started, with some input that it has not read yet. -/
def begun (c : TerminalConfig) (b : Behaviour) (input : List UInt8) : Scene where
  pipes := { child := { life := b, ports := { input := input.map some } }
             closeGrace := c.closeGrace
             closeConfirm := c.closeConfirm }

/-- Whether both loops have come to their ends. -/
def Over (z : Scene) : Prop := ∀ s, (z.loops s).reader.hasEnded = true

/-- The result of the read loop. -/
def result (z : Scene) : Except TerminalError Unit :=
  joined (drain (z.loops .output).results).2 (drain (z.loops .complaint).results).2

/-- What was written to a side and not read yet. -/
def pending (z : Scene) (s : Side) : ByteArray := z.pipes.child.ports.pending s.stream

/-- Whether the handle of a side is there. -/
def live (z : Scene) (s : Side) : Bool := (z.pipes.handle s).live

/-- **What the move of a loop gets from a read**, and the program after it. A read gets what is
there, and the end once there is nothing and nobody holds the stream any more. -/
def answer (z : Scene) (s : Side) : Move → Option (List (Except TerminalError ByteArray) × Child)
  | .ask => some (if z.live s then [] else [.error .closed], z.pipes.child)
  | .get chunk =>
    let got := z.pipes.child.take s.stream chunk.size
    if chunk.size ≤ chunkSize ∧ got.1 = chunk then some ([.ok chunk], got.2) else none
  | .halt =>
    if (z.pending s).isEmpty && !z.pipes.child.holds s.stream then
      some ([.error .closed], z.pipes.child)
    else none
  | .hand => some ([], z.pipes.child)

/-- **What a closing does next.** -/
def shut (z : Scene) : Option Scene :=
  match z.stage with
  | .up =>
    some { z with pipes.stdin := z.pipes.stdin.invalidate.2
                  pipes.child := z.pipes.child.cutInput
                  stage := .detached }
  | .detached => if z.pipes.child.hasEnded then some { z with stage := .seen } else none
  | .seen => some { z with pipes.stdout := z.pipes.stdout.invalidate.2, stage := .half }
  | .half =>
    some { z with pipes.stderr := z.pipes.stderr.invalidate.2
                  pipes.closed := some (.ok ())
                  stage := .closed }
  | .closed => none

/-- The scene with another loop at a side, and another program. -/
def put (z : Scene) (s : Side) (l : Loop) (child : Child) : Scene :=
  { z with pipes.child := child, loops := Function.update z.loops s l }

@[simp] theorem put_self (z : Scene) (s : Side) (l : Loop) (child : Child) :
    (z.put s l child).loops s = l := Function.update_self ..

theorem put_of_ne (z : Scene) {s t : Side} (h : t ≠ s) (l : Loop) (child : Child) :
    (z.put s l child).loops t = z.loops t := Function.update_of_ne h ..

@[simp] theorem put_live (z : Scene) (s t : Side) (l : Loop) (child : Child) :
    (z.put s l child).live t = z.live t := by cases t <;> rfl

/-- **One step.** -/
def step (z : Scene) : Step → Option Scene
  | .act => do
    let child ← z.pipes.child.advance
    some { z with pipes.child := child
                  said := fun s => z.said s ++ z.pipes.child.utters s.stream }
  | .read s m => do
    let l := z.loops s
    let reader ← l.reader.move (z.live s) m
    let (news, child) ← z.answer s m
    some (z.put s { reader, results := l.results ++ news
                    handed := l.handed ++ l.reader.handed m } child)
  | .shut => z.shut

/-- **Any number of steps.** -/
def run (z : Scene) (steps : List Step) : Option Scene := steps.foldlM step z

@[simp] theorem run_nil (z : Scene) : z.run [] = some z := rfl

@[simp] theorem run_cons (z : Scene) (a : Step) (steps : List Step) :
    z.run (a :: steps) = (z.step a).bind fun y => y.run steps := rfl

theorem run_append (z : Scene) (as bs : List Step) :
    z.run (as ++ bs) = (z.run as).bind fun y => y.run bs := List.foldlM_append

/-- **What holds at first, and stays with every step**, holds after a run. -/
theorem run_induct {P : Scene → Prop} (hstep : ∀ z a y, P z → z.step a = some y → P y)
    {z y : Scene} {steps : List Step} (hz : P z) (hr : z.run steps = some y) : P y :=
  foldlM_induct hstep hz hr

/-! ### The steps of an operation -/

variable {z y : Scene}

theorem step_act : z.step .act = some y ↔ ∃ child, z.pipes.child.advance = some child ∧
    y = { z with pipes.child := child
                 said := fun s => z.said s ++ z.pipes.child.utters s.stream } := by
  simp only [step, Option.bind_eq_bind, Option.bind_eq_some_iff, Option.some.injEq,
    eq_comm (a := y)]

theorem step_read {s : Side} {m : Move} : z.step (.read s m) = some y ↔
    ∃ reader news child, (z.loops s).reader.move (z.live s) m = some reader ∧
      z.answer s m = some (news, child) ∧
      y = z.put s { reader, results := (z.loops s).results ++ news
                    handed := (z.loops s).handed ++ (z.loops s).reader.handed m } child := by
  simp only [step, Option.bind_eq_bind, Option.bind_eq_some_iff, Option.some.injEq, Prod.exists,
    eq_comm (a := y)]
  constructor
  · rintro ⟨reader, hm, news, child, ha, hy⟩
    exact ⟨reader, news, child, hm, ha, hy⟩
  · rintro ⟨reader, news, child, hm, ha, hy⟩
    exact ⟨reader, hm, news, child, ha, hy⟩

/-- Things that the program does in a row leave the rest alone. -/
theorem run_acts {n : Nat} {child : Child} (h : z.pipes.child.advances n = some child) :
    ∃ said, z.run (List.replicate n .act) =
      some { z with pipes := { z.pipes with child }, said } := by
  induction n generalizing z with
  | zero =>
    obtain rfl := Option.some.inj h
    exact ⟨z.said, rfl⟩
  | succ n ih =>
    obtain ⟨c, hc, h⟩ := Option.bind_eq_some_iff.mp h
    let y : Scene := { z with pipes.child := c
                              said := fun s => z.said s ++ z.pipes.child.utters s.stream }
    obtain ⟨said, hy⟩ := ih (z := y) h
    have hs : z.step .act = some y := step_act.mpr ⟨c, hc, rfl⟩
    exact ⟨said, by rw [List.replicate_succ, run_cons, hs, Option.bind_some, hy]⟩

/-- **The steps of a closing**, with nothing but the program in between, are the operation. -/
theorem run_close (hs : z.stage = .up) (hc : z.pipes.closed = none)
    (he : (z.pipes.child.endInput.waitFor z.pipes.closeGrace).hasEnded = true) :
    z.pipes.close.1 = .ok () ∧ ∃ n m said,
      z.run (.shut :: (List.replicate n .act ++ (List.replicate m .act ++ [.shut, .shut, .shut]))) =
        some { z with pipes := z.pipes.close.2, said, stage := .closed } := by
  have hclose : z.pipes.close = (.ok (),
      { z.pipes with child := z.pipes.child.endInput.waitFor z.pipes.closeGrace, stdin := ⟨none⟩,
                     stdout := ⟨none⟩, stderr := ⟨none⟩, closed := some (.ok ()) }) := by
    simp [Pipes.close, Pipes.teardown, Handle.invalidate, hc, he]
  -- the program notices the end of its input, and is then waited for
  obtain ⟨n, hn⟩ : ∃ n, z.pipes.child.cutInput.advances n = some z.pipes.child.endInput :=
    Child.exists_advances _ _
  obtain ⟨m, hm⟩ : ∃ m, z.pipes.child.endInput.advances m =
      some (z.pipes.child.endInput.waitFor z.pipes.closeGrace) := Child.exists_advances _ _
  let detached : Scene := { z with pipes.stdin := ⟨none⟩
                                   pipes.child := z.pipes.child.cutInput
                                   stage := .detached }
  have hdetach : z.step .shut = some detached := by
    simp [step, shut, hs, Handle.invalidate, detached]
  obtain ⟨said, hnotice⟩ := run_acts (z := detached) hn
  let noticed : Scene := { detached with pipes.child := z.pipes.child.endInput, said }
  obtain ⟨said', hwait⟩ := run_acts (z := noticed) hm
  refine ⟨by rw [hclose], n, m, said', ?_⟩
  rw [run_cons, hdetach, Option.bind_some, run_append, hnotice, Option.bind_some, run_append, hwait,
    hclose]
  simp [step, shut, Handle.invalidate, noticed, detached, he]

/-- A read gets up to a chunk of what is there. -/
theorem step_get {s : Side} (hr : (z.loops s).reader = .reads)
    (hp : (z.pending s).isEmpty = false) {chunk : ByteArray} {child : Child}
    (ht : z.pipes.child.take s.stream chunkSize = (chunk, child)) :
    z.step (.read s (.get chunk)) = some (z.put s
      { z.loops s with reader := .holds chunk, results := (z.loops s).results ++ [.ok chunk] }
      child) := by
  have hsize := z.pipes.child.size_take s.stream chunkSize
  have hsame := z.pipes.child.take_size_take s.stream chunkSize
  have hne := not_congr (z.pipes.child.take_isEmpty_iff s.stream (show chunkSize ≠ 0 by decide))
  rw [ht] at hsize hsame hne
  have hmove : (z.loops s).reader.move (z.live s) (.get chunk) = some (.holds chunk) := by
    rw [hr]
    exact if_neg (hne.mpr (Bool.eq_false_iff.mp hp))
  have hanswer : z.answer s (.get chunk) = some ([.ok chunk], child) := by
    unfold answer
    simp only [hsame]
    exact if_pos ⟨hsize ▸ Nat.min_le_left .., trivial⟩
  refine step_read.mpr ⟨.holds chunk, [.ok chunk], child, hmove, hanswer, ?_⟩
  simp [hr, Reader.handed]

/-- A read finds the end once nothing is there and nobody holds the stream any more. -/
theorem step_halt {s : Side} (hr : (z.loops s).reader = .reads)
    (hp : (z.pending s).isEmpty = true) (hh : z.pipes.child.holds s.stream = false) :
    z.step (.read s .halt) = some (z.put s
      { z.loops s with reader := .ended, results := (z.loops s).results ++ [.error .closed] }
      z.pipes.child) := by
  have hanswer : z.answer s .halt = some ([.error .closed], z.pipes.child) :=
    if_pos (by rw [hp, hh]; rfl)
  refine step_read.mpr ⟨.ended, _, _, by rw [hr]; rfl, hanswer, ?_⟩
  simp [hr, Reader.handed]

/-- What a read has returned, unless it waits. -/
def returned : Reading → Option (Except TerminalError ByteArray)
  | .data d => some (.ok d)
  | .failed e => some (.error e)
  | .waits => none

/-- A loop in a read gets what the operation returns, once the program has been waited for. -/
theorem step_returned {s : Side} {p₀ p : Pipes} (hr : (z.loops s).reader = .reads)
    (hz : z.pipes = { p₀ with child := p₀.child.await s.stream }) {r : Reading}
    (h : p₀.readPipe s.stream chunkSize = (r, p)) {x : Except TerminalError ByteArray}
    (hx : returned r = some x) :
    ∃ m reader, z.step (.read s m) =
      some { z with pipes := p
                    loops := Function.update z.loops s
                      { z.loops s with reader, results := (z.loops s).results ++ [x] } } := by
  let child := p₀.child.await s.stream
  have hchild : z.pipes.child = child := by rw [hz]
  unfold Pipes.readPipe at h
  dsimp only at h
  split at h
  · next hsome =>
    obtain ⟨rfl, rfl⟩ := Prod.mk.inj h
    obtain rfl := Option.some.inj hx
    have hp : (z.pending s).isEmpty = false := by
      rw [pending, hchild]
      simpa using hsome
    let got := child.take s.stream chunkSize
    have ht : z.pipes.child.take s.stream chunkSize = (got.1, got.2) := by rw [hchild]
    refine ⟨.get got.1, .holds got.1, (step_get hr hp ht).trans ?_⟩
    rw [put, hz]
  · split at h
    · obtain ⟨rfl, -⟩ := Prod.mk.inj h
      cases hx
    · next hnone hheld =>
      obtain ⟨rfl, rfl⟩ := Prod.mk.inj h
      obtain rfl := Option.some.inj hx
      have hp : (z.pending s).isEmpty = true := by
        rw [pending, hchild]
        simpa using hnone
      have hh : z.pipes.child.holds s.stream = false := by
        rw [hchild]
        simpa using hheld
      refine ⟨.halt, .ended, (step_halt hr hp hh).trans ?_⟩
      rw [put, hchild, hz]

/-- **The steps of a read**, with nothing but the program in between, are the operation. -/
theorem run_read {s : Side} (hh : z.pipes.handle s = .ofValue s.stream)
    (hr : (z.loops s).reader = .asks) {r : Reading} {p : Pipes}
    (h : z.pipes.readPipe s.stream chunkSize = (r, p)) {x : Except TerminalError ByteArray}
    (hx : returned r = some x) :
    ∃ n m said reader, z.run (.read s .ask :: (List.replicate n .act ++ [.read s m])) =
      some { z with pipes := p
                    loops := Function.update z.loops s
                      { z.loops s with reader, results := (z.loops s).results ++ [x] }
                    said } := by
  obtain ⟨n, hn⟩ : ∃ n, z.pipes.child.advances n = some (z.pipes.child.await s.stream) :=
    Child.exists_advances _ _
  let reading := z.put s { z.loops s with reader := .reads } z.pipes.child
  have hask : z.step (.read s .ask) = some reading := by
    refine step_read.mpr ⟨.reads, [], z.pipes.child, ?_, ?_, ?_⟩
    · simp [live, hh, hr, Handle.live, Handle.ofValue, Reader.move]
    · simp [live, hh, Handle.live, Handle.ofValue, answer]
    · simp [reading, hr, Reader.handed]
  obtain ⟨said, hwait⟩ := run_acts (z := reading) hn
  let waited : Scene := { reading with pipes.child := z.pipes.child.await s.stream, said }
  have hreader : (waited.loops s).reader = .reads := by simp [waited, reading]
  obtain ⟨m, reader, hm⟩ := step_returned (z := waited) hreader rfl h hx
  refine ⟨n, m, said, reader, ?_⟩
  rw [run_cons, hask, Option.bind_some, run_append, hwait, Option.bind_some, run_cons]
  refine (congrArg (fun y => y.bind fun y => y.run []) hm).trans ?_
  simp [waited, reading, put]

/-! ### What a step does -/

/-- **What a step of the closing does:** it leaves alone what the loops and the program have done,
and takes a handle only after the program was seen to have ended. -/
structure Closes (z y : Scene) : Prop where
  loops : y.loops = z.loops
  said : y.said = z.said
  life : y.pipes.child.life = z.pipes.child.life
  givenUp : y.pipes.child.ports.givenUp = z.pipes.child.ports.givenUp
  pending : ∀ s, y.pending s = z.pending s
  left : y.stage.left + 1 = z.stage.left
  seen : y.stage.left = 2 → z.pipes.child.hasEnded = true
  live : ∀ s, y.live s = z.live s ∨ y.stage.left < 2

/-- **All that a step can do.** -/
inductive Change (z : Scene) : Step → Scene → Prop where
  | act {child : Child} (h : z.pipes.child.advance = some child) :
    Change z .act { z with pipes.child := child
                           said := fun s => z.said s ++ z.pipes.child.utters s.stream }
  | admitted {s : Side} (hr : (z.loops s).reader = .asks) (hl : z.live s = true) :
    Change z (.read s .ask) (z.put s { z.loops s with reader := .reads } z.pipes.child)
  | refused {s : Side} (hr : (z.loops s).reader = .asks) (hl : z.live s = false) :
    Change z (.read s .ask) (z.put s
      { z.loops s with reader := .ended, results := (z.loops s).results ++ [.error .closed] }
      z.pipes.child)
  | get {s : Side} {chunk : ByteArray} {child : Child} (hr : (z.loops s).reader = .reads)
    (hne : ¬ chunk.isEmpty = true)
    (ht : z.pipes.child.take s.stream chunk.size = (chunk, child)) :
    Change z (.read s (.get chunk)) (z.put s
      { z.loops s with reader := .holds chunk, results := (z.loops s).results ++ [.ok chunk] }
      child)
  | halt {s : Side} (hr : (z.loops s).reader = .reads) (hp : (z.pending s).isEmpty = true)
    (hh : z.pipes.child.holds s.stream = false) :
    Change z (.read s .halt) (z.put s
      { z.loops s with reader := .ended, results := (z.loops s).results ++ [.error .closed] }
      z.pipes.child)
  | hand {s : Side} {chunk : ByteArray} (hr : (z.loops s).reader = .holds chunk) :
    Change z (.read s .hand) (z.put s
      { z.loops s with reader := .asks, handed := (z.loops s).handed ++ [chunk] } z.pipes.child)
  | shut {y : Scene} (h : Closes z y) : Change z .shut y

theorem closes_shut (h : z.shut = some y) : Closes z y := by
  unfold shut at h
  split at h
  · next hs =>
    obtain rfl := Option.some.inj h
    exact ⟨rfl, rfl, rfl, rfl, fun s => by cases s <;> rfl, by rw [hs]; rfl, nofun,
      fun s => by cases s <;> exact .inl rfl⟩
  · next hs =>
    obtain ⟨he, h⟩ := Option.ite_none_right_eq_some.mp h
    obtain rfl := Option.some.inj h
    exact ⟨rfl, rfl, rfl, rfl, fun _ => rfl, by rw [hs]; rfl, fun _ => he, fun _ => .inl rfl⟩
  · next hs =>
    obtain rfl := Option.some.inj h
    exact ⟨rfl, rfl, rfl, rfl, fun _ => rfl, by rw [hs]; rfl, nofun,
      fun _ => .inr (Nat.lt_succ_self 1)⟩
  · next hs =>
    obtain rfl := Option.some.inj h
    exact ⟨rfl, rfl, rfl, rfl, fun _ => rfl, by rw [hs]; rfl, nofun,
      fun _ => .inr Nat.zero_lt_two⟩
  · cases h

theorem change_read {s : Side} {m : Move} (h : z.step (.read s m) = some y) :
    Change z (.read s m) y := by
  obtain ⟨reader, news, child, hm, ha, rfl⟩ := step_read.mp h
  unfold Reader.move at hm
  split at hm
  · next hr =>
    obtain rfl := Option.some.inj hm
    obtain ⟨rfl, rfl⟩ := Prod.mk.inj (Option.some.inj ha)
    cases hl : z.live s with
    | true => simpa [hr, Reader.handed] using Change.admitted hr hl
    | false => simpa [hr, Reader.handed] using Change.refused hr hl
  · next chunk hr =>
    obtain ⟨hne, hm⟩ := Option.ite_none_left_eq_some.mp hm
    obtain rfl := Option.some.inj hm
    obtain ⟨⟨-, hdata⟩, ha⟩ := Option.ite_none_right_eq_some.mp ha
    obtain ⟨rfl, rfl⟩ := Prod.mk.inj (Option.some.inj ha)
    simpa [hr, Reader.handed] using Change.get hr hne (Prod.ext hdata rfl)
  · next hr =>
    obtain rfl := Option.some.inj hm
    obtain ⟨he, ha⟩ := Option.ite_none_right_eq_some.mp ha
    obtain ⟨rfl, rfl⟩ := Prod.mk.inj (Option.some.inj ha)
    obtain ⟨hp, hh⟩ := Bool.and_eq_true_iff.mp he
    simpa [hr, Reader.handed] using Change.halt hr hp (by simpa using hh)
  · next chunk hr =>
    obtain rfl := Option.some.inj hm
    obtain ⟨rfl, rfl⟩ := Prod.mk.inj (Option.some.inj ha)
    simpa [hr, Reader.handed] using Change.hand hr
  · cases hm

theorem step_change {a : Step} (h : z.step a = some y) : Change z a y := by
  cases a with
  | act =>
    obtain ⟨child, hc, rfl⟩ := step_act.mp h
    exact .act hc
  | read s m => exact change_read h
  | shut => exact .shut (closes_shut h)

end Scene

end Terminal

end PaneRelay
