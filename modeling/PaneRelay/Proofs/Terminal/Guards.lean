import PaneRelay.Terminal.Pipes

/-! # Closed for good

Some pipes are guarded by a handle each, and by the result of their closing once there is one. Every
call asks its guard before it does anything else, and a closing takes all of them away. So there are
two states of the guards, and one way from the one to the other: the first close. From then on the
guards answer every call, whatever the program does, and nobody gets to the pipes any more.

* `Handle.after_eq`: a handle after any operations.
* `Guards.answer?`, `perform_of_answer?`: what the guards answer, without a look at the pipes.
* `guards_perform`, `perform_close`: what the calls do to the guards.
* `Pipes.log`: what becomes of calls one after another.
* `closed_for_good`: the calls before the first close, and those after it. -/

namespace PaneRelay.Terminal

/-! ### Handles -/

namespace Handle

variable {α : Type}

/-- **What can be asked of a handle.** -/
inductive Op where
  /-- Its value. -/
  | snapshot
  /-- Whether it has one. -/
  | live
  /-- Its value, which is taken away. -/
  | invalidate
deriving DecidableEq

/-- The handle after an operation. -/
def step (h : Handle α) : Op → Handle α
  | .snapshot | .live => h
  | .invalidate => h.invalidate.2

/-- The handle after some operations. -/
def after (h : Handle α) (ops : List Op) : Handle α := ops.foldl step h

/-- **A handle keeps its value** until it is taken away. -/
theorem after_eq (h : Handle α) (ops : List Op) :
    h.after ops = if .invalidate ∈ ops then ⟨none⟩ else h := by
  induction ops generalizing h with
  | nil => rfl
  | cons op ops ih =>
    show (h.step op).after ops = _
    rw [ih]
    cases op with
    | snapshot | live => simp [step]
    | invalidate => simp [step, invalidate]

end Handle

namespace Pipes

open PaneRelay.Child (Stream Behaviour)

/-! ### Calls -/

/-- **What can be asked of some pipes.** -/
inductive Call where
  /-- Up to so many bytes of output. -/
  | read (max : Nat)
  /-- Up to so many bytes of complaints. -/
  | readStderr (max : Nat)
  /-- To give the program some bytes. -/
  | write (data : ByteArray)
  /-- To change the size. -/
  | resize (cols rows : Nat)
  /-- To close. -/
  | close

/-- **What comes back.** -/
inductive Answer where
  /-- Of a read. -/
  | reading (r : Reading)
  /-- Of a write. -/
  | written (r : Except TerminalError Nat)
  /-- Of a change of size. -/
  | resized (r : Except TerminalError Unit)
  /-- Of a closing. -/
  | closed (r : Except TerminalError Unit)

/-- A call: the answer, and the pipes after it. -/
def perform (p : Pipes) : Call → Answer × Pipes
  | .read max => let (r, p) := p.read max; (.reading r, p)
  | .readStderr max => let (r, p) := p.readStderr max; (.reading r, p)
  | .write data => let (r, p) := p.write data; (.written r, p)
  | .resize cols rows => (.resized (p.resize cols rows), p)
  | .close => let (r, p) := p.close; (.closed r, p)

/-! ### Guards -/

/-- **All that a call looks at** before it gets to the pipes. -/
structure Guards where
  /-- The handle of the input. -/
  stdin : Handle Stream
  /-- The handle of the output. -/
  stdout : Handle Stream
  /-- The handle of the complaints. -/
  stderr : Handle Stream
  /-- The result of closing, once that was done. -/
  closed : Option (Except TerminalError Unit)

/-- The guards of some pipes. -/
def guards (p : Pipes) : Guards := ⟨p.stdin, p.stdout, p.stderr, p.closed⟩

namespace Guards

/-- The guards of pipes that are not closed. -/
def up : Guards := ⟨.ofValue .input, .ofValue .output, .ofValue .complaint, none⟩

/-- The guards of pipes whose closing had some result. -/
def down (result : Except TerminalError Unit) : Guards := ⟨⟨none⟩, ⟨none⟩, ⟨none⟩, some result⟩

/-- The failure of a snapshot. -/
def failure? {α : Type} (h : Handle α) : Option TerminalError :=
  match h.snapshot with
  | .error e => some e
  | .ok _ => none

/-- **What the guards answer by themselves.** If it is nothing, the call gets to the pipes. -/
def answer? (g : Guards) : Call → Option Answer
  | .read _ => (failure? g.stdout).map fun e => .reading (.failed e)
  | .readStderr _ => (failure? g.stderr).map fun e => .reading (.failed e)
  | .write _ => (failure? g.stdin).map fun e => .written (.error e)
  | .resize cols rows =>
    match validateSize cols rows with
    | .error e => some (.resized (.error e))
    | .ok () => some (.resized (if g.stdin.live then .ok () else .error .closed))
  | .close => g.closed.map .closed

theorem failure?_eq_some {α : Type} {h : Handle α} {e : TerminalError} :
    failure? h = some e ↔ h.snapshot = .error e := by
  unfold failure?
  cases h.snapshot <;> simp

end Guards

/-- **The answer to a call after a closing** that had some result. A size is looked at first. -/
def Call.refusal (result : Except TerminalError Unit) : Call → Answer
  | .read _ | .readStderr _ => .reading (.failed .closed)
  | .write _ => .written (.error .closed)
  | .resize cols rows =>
    .resized (.error (if (1 ≤ cols ∧ cols ≤ 32767) ∧ (1 ≤ rows ∧ rows ≤ 32767) then .closed
      else .invalidSize cols rows))
  | .close => .closed result

variable {p : Pipes} {call : Call} {a : Answer}

/-- **A call that the guards answer** does nothing else, whatever the pipes hold. -/
theorem perform_of_answer? (h : p.guards.answer? call = some a) : p.perform call = (a, p) := by
  cases call with
  | read max =>
    obtain ⟨e, he, rfl⟩ := Option.map_eq_some_iff.mp h
    have hs : p.stdout.snapshot = .error e := Guards.failure?_eq_some.mp he
    simp only [perform, read, hs]
  | readStderr max =>
    obtain ⟨e, he, rfl⟩ := Option.map_eq_some_iff.mp h
    have hs : p.stderr.snapshot = .error e := Guards.failure?_eq_some.mp he
    simp only [perform, readStderr, hs]
  | write data =>
    obtain ⟨e, he, rfl⟩ := Option.map_eq_some_iff.mp h
    have hs : p.stdin.snapshot = .error e := Guards.failure?_eq_some.mp he
    simp only [perform, write, hs]
  | resize cols rows =>
    simp only [Guards.answer?] at h
    simp only [perform, resize]
    cases hv : validateSize cols rows with
    | error e =>
      rw [hv] at h
      exact congrArg (·, p) (Option.some.inj h)
    | ok u =>
      rw [hv] at h
      exact congrArg (·, p) (Option.some.inj h)
  | close =>
    obtain ⟨r, hr, rfl⟩ := Option.map_eq_some_iff.mp h
    have hc : p.closed = some r := hr
    simp only [perform, close, hc]

/-- **Guards of pipes that were closed** answer every call. -/
theorem answer?_down (result : Except TerminalError Unit) (call : Call) :
    (Guards.down result).answer? call = some (call.refusal result) := by
  cases call with
  | resize cols rows =>
    have hsize : validateSize cols rows = if (1 ≤ cols ∧ cols ≤ 32767) ∧ (1 ≤ rows ∧ rows ≤ 32767)
        then .ok () else .error (.invalidSize cols rows) := rfl
    simp only [Guards.answer?, Call.refusal, hsize]
    by_cases h : (1 ≤ cols ∧ cols ≤ 32767) ∧ (1 ≤ rows ∧ rows ≤ 32767)
    · rw [if_pos h, if_pos h]
      rfl
    · rw [if_neg h, if_neg h]
  | _ => rfl

/-- **Guards of pipes that were not closed** answer a change of size, which only has to be a good
one, and nothing else. -/
theorem answer?_up (call : Call) : Guards.up.answer? call =
    match call with
    | .resize cols rows => some (.resized (validateSize cols rows))
    | _ => none := by
  cases call with
  | resize cols rows =>
    simp only [Guards.answer?]
    cases validateSize cols rows <;> rfl
  | _ => rfl

/-! ### What the calls do to the guards -/

/-- **No call but a closing** does anything to the guards. -/
theorem guards_perform (h : call ≠ .close) : (p.perform call).2.guards = p.guards := by
  have hread : ∀ s max, (p.readPipe s max).2.guards = p.guards := by
    intro s max
    unfold readPipe
    dsimp only
    split
    · rfl
    · split <;> rfl
  cases call with
  | read max =>
    simp only [perform, read]
    cases p.stdout.snapshot with
    | error e => rfl
    | ok s => exact hread s max
  | readStderr max =>
    simp only [perform, readStderr]
    cases p.stderr.snapshot with
    | error e => rfl
    | ok s => exact hread s max
  | write data =>
    simp only [perform, write]
    cases p.stdin.snapshot with
    | error e => rfl
    | ok s =>
      dsimp only
      split
      · rfl
      · split <;> rfl
  | resize cols rows => rfl
  | close => exact absurd rfl h

/-- **The first closing** takes all handles away, and its result is kept. -/
theorem perform_close (h : p.closed = none) :
    p.perform .close = (.closed p.teardown.1, { p.teardown.2 with closed := some p.teardown.1 }) ∧
      (p.perform .close).2.guards = .down p.teardown.1 := by
  have hclose : p.perform .close =
      (.closed p.teardown.1, { p.teardown.2 with closed := some p.teardown.1 }) := by
    simp only [perform, close, h]
  exact ⟨hclose, by rw [hclose]; rfl⟩

/-! ### Calls one after another -/

/-- **A call, and what becomes of the program before it**, which goes on by itself. -/
structure Visit where
  /-- What becomes of the program. -/
  meanwhile : Child → Child
  /-- The call. -/
  call : Call

/-- **What becomes of a call.** -/
structure Entry where
  /-- The call. -/
  call : Call
  /-- What comes back. -/
  answer : Answer
  /-- Whether it got to the pipes; the guards alone answer it otherwise. -/
  gotThrough : Bool

/-- The pipes when a call is made. -/
def meet (p : Pipes) (v : Visit) : Pipes := { p with child := v.meanwhile p.child }

/-- What becomes of a call. -/
def entry (p : Pipes) (v : Visit) : Entry :=
  { call := v.call
    answer := ((p.meet v).perform v.call).1
    gotThrough := ((p.meet v).guards.answer? v.call).isNone }

/-- The pipes after a call. -/
def visit (p : Pipes) (v : Visit) : Pipes := ((p.meet v).perform v.call).2

/-- The pipes after some calls. -/
def after (p : Pipes) (vs : List Visit) : Pipes := vs.foldl visit p

/-- **What becomes of calls** one after another. -/
def log (p : Pipes) : List Visit → List Entry
  | [] => []
  | v :: vs => p.entry v :: (p.visit v).log vs

theorem log_append (p : Pipes) (us vs : List Visit) :
    p.log (us ++ vs) = p.log us ++ (p.after us).log vs := by
  induction us generalizing p with
  | nil => rfl
  | cons u us ih => exact congrArg (p.entry u :: ·) (ih _)

/-- What becomes of a call after a closing that had some result. -/
def Visit.refused (result : Except TerminalError Unit) (v : Visit) : Entry :=
  { call := v.call, answer := v.call.refusal result, gotThrough := false }

/-- **A call that comes after a closing** is answered by the guards, and leaves the pipes as it finds
them. -/
theorem visit_down {result : Except TerminalError Unit} (h : p.guards = .down result) (v : Visit) :
    p.entry v = v.refused result ∧ p.visit v = p.meet v := by
  have hguards : (p.meet v).guards = .down result := h
  have hanswer : (p.meet v).guards.answer? v.call = some (v.call.refusal result) := by
    rw [hguards, answer?_down]
  have hperform := perform_of_answer? hanswer
  unfold entry visit
  rw [hperform, hanswer]
  exact ⟨rfl, rfl⟩

/-- **Calls after a closing.** -/
theorem log_down {result : Except TerminalError Unit} (h : p.guards = .down result)
    (vs : List Visit) : p.log vs = vs.map (·.refused result) ∧ p.after vs = vs.foldl meet p := by
  induction vs generalizing p with
  | nil => exact ⟨rfl, rfl⟩
  | cons v vs ih =>
    obtain ⟨hentry, hvisit⟩ := visit_down h v
    obtain ⟨hlog, hafter⟩ := ih (p := p.meet v) h
    rw [log, hentry, hvisit, hlog]
    refine ⟨rfl, ?_⟩
    show (p.visit v).after vs = _
    rw [hvisit, hafter]
    rfl

/-- **Calls before the first closing.** -/
theorem log_up (h : p.guards = .up) {vs : List Visit} (hvs : ∀ v ∈ vs, v.call ≠ .close) :
    (p.after vs).guards = .up ∧ ∀ e ∈ p.log vs, e.call ≠ .close ∧
      ∀ cols rows, e.call = .resize cols rows → e.answer = .resized (validateSize cols rows) := by
  induction vs generalizing p with
  | nil => exact ⟨h, List.forall_mem_nil _⟩
  | cons v vs ih =>
    obtain ⟨hv, hvs⟩ := List.forall_mem_cons.mp hvs
    have hguards : (p.meet v).guards = .up := h
    obtain ⟨hafter, hlog⟩ := ih (p := p.visit v) ((guards_perform hv).trans hguards) hvs
    refine ⟨hafter, List.forall_mem_cons.mpr ⟨⟨hv, fun cols rows hcall => ?_⟩, hlog⟩⟩
    have hanswer : (p.meet v).guards.answer? v.call = some (.resized (validateSize cols rows)) := by
      rw [hguards, answer?_up, show v.call = .resize cols rows from hcall]
    show ((p.meet v).perform v.call).1 = _
    rw [perform_of_answer? hanswer]

/-! ### The law -/

/-- **Closed for good.** A program on pipes is started, calls are made one after another, and the
program does what it likes in between. Before the first closing, a change of size only has to be a
good one. The first closing gets through to the teardown, and its result is kept. The calls after it
do not get through: closings are told that result, and the others that the pipes are closed, but that
a bad size is still called one. All of them leave the pipes as the program makes them. A handle gives
its value to the first who takes it away; every snapshot before has the value, and none after. -/
theorem closed_for_good (c : TerminalConfig) (b : Behaviour) (failure : Option IoError) :
    let p : Pipes := { Pipes.ofBehaviour c b with killFailure := failure }
    (∀ early : List Visit, (∀ v ∈ early, v.call ≠ .close) →
      (∀ e ∈ p.log early, e.call ≠ .close ∧ ∀ cols rows, e.call = .resize cols rows →
        e.answer = .resized (if (1 ≤ cols ∧ cols ≤ 32767) ∧ (1 ≤ rows ∧ rows ≤ 32767) then .ok ()
          else .error (.invalidSize cols rows))) ∧
      ∀ (m : Child → Child) (late : List Visit),
        let q := (p.after early).meet ⟨m, .close⟩
        p.log (early ++ ⟨m, .close⟩ :: late) =
          p.log early ++ ⟨.close, .closed q.teardown.1, true⟩ :: late.map (·.refused q.teardown.1) ∧
        p.after (early ++ ⟨m, .close⟩ :: late) =
          late.foldl meet { q.teardown.2 with closed := some q.teardown.1 }) ∧
    ∀ (α : Type) (a : α) (ops : List Handle.Op),
      ((Handle.ofValue a).after ops).invalidate.1 =
          (if .invalidate ∈ ops then none else some a) ∧
        ((Handle.ofValue a).after ops).snapshot =
          if .invalidate ∈ ops then .error .closed else .ok a := by
  intro p
  have hp : p.guards = .up := rfl
  refine ⟨fun early hearly => ?_, fun α a ops => ?_⟩
  · obtain ⟨hup, hlog⟩ := log_up hp hearly
    refine ⟨hlog, fun m late => ?_⟩
    intro q
    have hq : q.closed = none := congrArg Guards.closed hup
    obtain ⟨hclose, hdown⟩ := perform_close hq
    have hentry : (p.after early).entry ⟨m, .close⟩ = ⟨.close, .closed q.teardown.1, true⟩ := by
      show Entry.mk .close (q.perform .close).1 (q.guards.answer? .close).isNone = _
      rw [hclose, show q.guards = .up from hup]
      rfl
    obtain ⟨hlate, hafter⟩ := log_down hdown late
    constructor
    · rw [log_append, log, hentry]
      exact congrArg (fun l => p.log early ++ _ :: l) hlate
    · rw [after, List.foldl_append, List.foldl_cons]
      exact hafter.trans (by rw [hclose])
  · rw [Handle.after_eq]
    split <;> exact ⟨rfl, rfl⟩

/-- Calls on a program that does not end in time, which the system refuses to kill. The program has
something to say after the closing, and nobody gets it. -/
theorem closed_for_good_unkilled :
    let p : Pipes :=
      { Pipes.ofBehaviour { command := "sleep", closeGrace := 2 } (.sleeps 3 fun _ => .done) with
        killFailure := some .permissionDenied }
    let early : List Visit := [⟨id, .resize 80 24⟩, ⟨id, .write ⟨#[120]⟩⟩, ⟨id, .resize 0 24⟩]
    let talks : Child → Child := fun c => { c with ports.output := ⟨#[121]⟩ }
    let late : List Visit := [⟨talks, .read 1⟩, ⟨id, .readStderr 1⟩, ⟨id, .write ⟨#[]⟩⟩,
      ⟨id, .resize 0 24⟩, ⟨id, .resize 80 24⟩, ⟨id, .close⟩]
    let result : Except TerminalError Unit :=
      .error (.failed .permissionDenied "Permission denied (os error 13)")
    (∀ v ∈ early, v.call ≠ .close) ∧
      p.log (early ++ ⟨id, .close⟩ :: late) =
        [⟨.resize 80 24, .resized (.ok ()), false⟩, ⟨.write ⟨#[120]⟩, .written (.ok 1), true⟩,
          ⟨.resize 0 24, .resized (.error (.invalidSize 0 24)), false⟩,
          ⟨.close, .closed result, true⟩, ⟨.read 1, .reading (.failed .closed), false⟩,
          ⟨.readStderr 1, .reading (.failed .closed), false⟩,
          ⟨.write ⟨#[]⟩, .written (.error .closed), false⟩,
          ⟨.resize 0 24, .resized (.error (.invalidSize 0 24)), false⟩,
          ⟨.resize 80 24, .resized (.error .closed), false⟩, ⟨.close, .closed result, false⟩] ∧
      (p.after (early ++ ⟨id, .close⟩ :: late)).child.ports.output = ⟨#[121]⟩ ∧
      ((Handle.ofValue 7).after [.snapshot, .invalidate, .live]).invalidate.1 = none ∧
      ((Handle.ofValue 7).after [.snapshot, .live]).snapshot = .ok 7 := by
  intro p early talks late result
  have hearly : ∀ v ∈ early, v.call ≠ .close := by simp [early]
  obtain ⟨hpipes, hhandles⟩ := closed_for_good { command := "sleep", closeGrace := 2 }
    (.sleeps 3 fun _ => .done) (some .permissionDenied)
  obtain ⟨hlog, hafter⟩ := (hpipes early hearly).2 id late
  have hlive := (hhandles Nat 7 [.snapshot, .live]).2
  exact ⟨hearly, hlog.trans rfl, congrArg (fun p : Pipes => p.child.ports.output) (hafter.trans rfl),
    (hhandles Nat 7 [.snapshot, .invalidate, .live]).1, hlive⟩

end Pipes

end PaneRelay.Terminal
