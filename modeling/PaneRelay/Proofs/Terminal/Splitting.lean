import PaneRelay.Terminal.Pipes

/-! # Input in several writes

Each write completes the line ends of its own bytes. It cannot see those of the next write, so a line
end that is cut in two, with the carriage return at the end of one write and the line feed at the
start of what follows, gets a line feed too many. Everything else that is written reaches the program
as if it were written at once.

* `LineEnding.cuts`: how many line ends are cut in two.
* `LineEnding.complete_append`, `LineEnding.Completes`: completing pieces and completing the whole.
* `Child.send_send`: input sent in two goes is input sent at once.
* `Pipes.Reached`: pipes on which some operations were done.
* `Pipes.written_in_pieces`: what successive writes tell the caller and what the program gets. -/

namespace PaneRelay

/-! ### Line ends -/

namespace Terminal.LineEnding

variable {a b : List UInt8} {as : List (List UInt8)}

/-- **A line end is cut in two** between two pieces. -/
def Cut (a b : List UInt8) : Prop := a.getLast? = some cr ∧ startsWithLf b = true

instance : Decidable (Cut a b) := inferInstanceAs (Decidable (_ ∧ _))

/-- **How many line ends are cut in two** by pieces of a text. -/
def cuts : List (List UInt8) → Nat
  | [] => 0
  | a :: as => (if Cut a as.flatten then 1 else 0) + cuts as

/-- The line feed that a piece gets too many. -/
def surplus (a b : List UInt8) : List UInt8 := if Cut a b then [lf] else []

theorem not_cut_nil : ¬ Cut [] b := fun h => nomatch h.1

theorem cut_cons_cons {x y : UInt8} : Cut (x :: y :: a) b ↔ Cut (y :: a) b := by
  rw [Cut, List.getLast?_cons_cons, Cut]

theorem complete_cons (x : UInt8) (a : List UInt8) : complete (x :: a) =
    if x == cr && !startsWithLf a then x :: lf :: complete a else x :: complete a := rfl

/-- **Completing two pieces**, by induction on the first: the surplus is at the end of it. -/
theorem complete_append (a b : List UInt8) :
    ∃ m, complete a = m ++ surplus a b ∧ complete (a ++ b) = m ++ complete b := by
  induction a with
  | nil => exact ⟨[], by rw [surplus, if_neg not_cut_nil]; rfl, rfl⟩
  | cons x a ih =>
    cases a with
    | nil =>
      -- the byte next to the boundary
      by_cases hx : x = cr
      · subst hx
        cases hb : startsWithLf b with
        | true =>
          have hcut : Cut [cr] b := ⟨rfl, hb⟩
          exact ⟨[cr], by rw [surplus, if_pos hcut]; rfl, by simp [complete, hb]⟩
        | false =>
          have hcut : ¬ Cut [cr] b := fun h => absurd h.2 (by simp [hb])
          exact ⟨[cr, lf], by rw [surplus, if_neg hcut]; rfl, by simp [complete, hb]⟩
      · have hcut : ¬ Cut [x] b := fun h => hx (by simpa using h.1)
        exact ⟨[x], by rw [surplus, if_neg hcut]; simp [complete, hx], by simp [complete, hx]⟩
    | cons y a =>
      obtain ⟨m, hm, hmb⟩ := ih
      have hsurplus : surplus (x :: y :: a) b = surplus (y :: a) b := by
        simp only [surplus, cut_cons_cons]
      have hstarts : startsWithLf (y :: a ++ b) = startsWithLf (y :: a) := rfl
      rw [hsurplus, List.cons_append, complete_cons x, complete_cons x, hstarts, hm, hmb]
      split
      · exact ⟨x :: lf :: m, rfl, rfl⟩
      · exact ⟨x :: m, rfl, rfl⟩

/-- **What completing pieces comes to**, against completing the whole text: one line feed more for
each line end that is cut in two, and nothing else. -/
structure Completes (as : List (List UInt8)) : Prop where
  sublist : (complete as.flatten).Sublist (as.flatMap complete)
  length : (as.flatMap complete).length = (complete as.flatten).length + cuts as
  eq_iff : as.flatMap complete = complete as.flatten ↔ cuts as = 0

/-- **Pieces**, by induction on them. -/
theorem completes (as : List (List UInt8)) : Completes as := by
  have hboth : (complete as.flatten).Sublist (as.flatMap complete) ∧
      (as.flatMap complete).length = (complete as.flatten).length + cuts as := by
    induction as with
    | nil => exact ⟨.slnil, rfl⟩
    | cons a as ih =>
      obtain ⟨hsub, hlen⟩ := ih
      obtain ⟨m, hm, hmb⟩ := complete_append a as.flatten
      have hsurplus : (surplus a as.flatten).length = if Cut a as.flatten then 1 else 0 := by
        unfold surplus
        split <;> rfl
      rw [List.flatten_cons, List.flatMap_cons, hmb, hm, cuts]
      refine ⟨?_, ?_⟩
      · rw [List.append_assoc]
        exact (hsub.trans (List.sublist_append_right _ _)).append_left m
      · simp only [List.length_append, hsurplus, hlen]
        omega
  obtain ⟨hsub, hlen⟩ := hboth
  refine ⟨hsub, hlen, fun heq => ?_, fun hcuts => ?_⟩
  · rw [heq] at hlen
    omega
  · exact (hsub.eq_of_length (by omega)).symm

theorem toList_normalize (data : ByteArray) :
    (normalize data).1.data.toList = complete data.data.toList := by
  unfold normalize
  dsimp only
  split
  · simp
  · next h => exact (complete_of_not_hasLone (by simpa using h)).symm

end Terminal.LineEnding

/-! ### Input of a program -/

namespace Child

open PaneRelay.Child (Behaviour Ports)

/-- Ports with more input. -/
def Ports.feed (p : Ports) (items : List (Option UInt8)) : Ports :=
  { p with input := p.input ++ items }

variable {p : Ports} {w : Ports → Nat → Bool}

theorem Ports.feed_feed (p : Ports) (xs ys : List (Option UInt8)) :
    (p.feed xs).feed ys = p.feed (xs ++ ys) := by
  simp [feed]

theorem Ports.feed_write (p : Ports) (s : Stream) (data : ByteArray) (xs : List (Option UInt8)) :
    (p.write s data).feed xs = (p.feed xs).write s data := by
  cases s <;> rfl

theorem Ports.inputEnded_write (p : Ports) (s : Stream) (data : ByteArray) :
    (p.write s data).inputEnded = p.inputEnded := by
  cases s <;> rfl

/-- Nothing that a program does ends its input. -/
theorem Behaviour.inputEnded_run (b : Behaviour) (p : Ports) :
    (b.run w p).2.inputEnded = p.inputEnded := by
  induction b generalizing p with
  | ends status => rfl
  | writes s data next ih => rw [run, ih, p.inputEnded_write]
  | reads next ih =>
    obtain ⟨input, inputEnded⟩ := p
    cases input with
    | cons x rest => rw [run, ih]
    | nil =>
      cases inputEnded with
      | true => rw [run, ih]
      | false => rfl
  | sleeps ms next ih =>
    rw [run]
    split
    · rw [ih]
    · rfl
  | asks next ih => rw [run, ih]
  | closes s next ih => rw [run, ih]

/-- **More input for a program that has run** is more input for the program before, by induction on
what it does: what it has not asked for yet, it did not miss. -/
theorem Behaviour.run_feed (b : Behaviour) (hp : p.inputEnded = false)
    (xs : List (Option UInt8)) :
    (b.run (fun _ _ => false) p).1.run (fun _ _ => false) ((b.run (fun _ _ => false) p).2.feed xs) =
      b.run (fun _ _ => false) (p.feed xs) := by
  induction b generalizing p with
  | ends status => rfl
  | writes s data next ih =>
    simp only [run, ← p.feed_write]
    exact ih () (p.inputEnded_write s data ▸ hp)
  | reads next ih =>
    obtain ⟨input, inputEnded⟩ := p
    cases hp
    cases input with
    | cons x rest => exact ih x rfl
    | nil => rfl
  | sleeps ms next ih =>
    by_cases hms : ms = 0
    · simp only [run, hms, decide_true, Bool.true_or, if_true]
      exact ih () hp
    · have hstay : ∀ q : Ports, (Behaviour.sleeps ms next).run (fun _ _ => false) q =
          (.sleeps ms next, q) := fun q => by simp [run, hms]
      rw [hstay, hstay]
  | asks next ih => exact ih p.screen hp
  | closes s next ih => exact ih () hp

@[simp] theorem inputEnded_proceed (c : Child) (waits : Ports → Nat → Bool) :
    (c.proceed waits).ports.inputEnded = c.ports.inputEnded := c.life.inputEnded_run c.ports

@[simp] theorem inputEnded_take (c : Child) (s : Stream) (max : Nat) :
    (c.take s max).2.ports.inputEnded = c.ports.inputEnded := by
  cases s <;> rfl

@[simp] theorem inputEnded_send (c : Child) (xs : List (Option UInt8)) :
    (c.send xs).ports.inputEnded = c.ports.inputEnded := inputEnded_proceed _ _

/-- **Input sent in two goes** is input sent at once. -/
theorem send_send (c : Child) (h : c.ports.inputEnded = false) (xs ys : List (Option UInt8)) :
    (c.send xs).send ys = c.send (xs ++ ys) := by
  have hrun := c.life.run_feed (p := c.ports.feed xs) h ys
  rw [c.ports.feed_feed] at hrun
  exact congrArg (fun x : Behaviour × Ports => { c with life := x.1, ports := x.2 }) hrun

end Child

/-! ### Writes -/

namespace Terminal.Pipes

open PaneRelay.Child (Behaviour)
open LineEnding (complete Completes completes)

/-- **Pipes of a program that was started**, after some operations. -/
inductive Reached : Pipes → Prop where
  | start (c : TerminalConfig) (b : Behaviour) : Reached (.ofBehaviour c b)
  | read {p : Pipes} (max : Nat) : Reached p → Reached (p.read max).2
  | readStderr {p : Pipes} (max : Nat) : Reached p → Reached (p.readStderr max).2
  | write {p : Pipes} (data : ByteArray) : Reached p → Reached (p.write data).2
  | close {p : Pipes} : Reached p → Reached p.close.2
  | readLoop {p : Pipes} : Reached p → Reached p.readLoop.2
  | closeReading {p : Pipes} : Reached p → Reached p.closeReading.2

/-- While one can write, the input has not ended. -/
def Open (p : Pipes) : Prop := p.stdin.live = true → p.child.ports.inputEnded = false

variable {p : Pipes} {a b : List UInt8}

theorem Open.readPipe (h : Open p) (s : Child.Stream) (max : Nat) : Open (p.readPipe s max).2 := by
  unfold Pipes.readPipe Open
  dsimp only
  split
  · intro hlive
    simpa [Child.await] using h hlive
  · split
    all_goals
      intro hlive
      simpa [Child.await] using h hlive

theorem Open.close (h : Open p) : Open p.close.2 := by
  unfold Pipes.close
  split
  · exact h
  · rintro ⟨⟩

/-- **What every operation preserves.** -/
theorem Reached.open (h : Reached p) : Open p := by
  induction h with
  | start c b =>
    intro _
    exact Child.inputEnded_proceed _ _
  | @read p max _ ih =>
    unfold Pipes.read
    split
    · exact ih
    · exact ih.readPipe _ max
  | @readStderr p max _ ih =>
    unfold Pipes.readStderr
    split
    · exact ih
    · exact ih.readPipe _ max
  | @write p data _ ih =>
    unfold Pipes.write
    dsimp only
    split
    · exact ih
    · split
      · exact ih
      · split
        · intro hlive
          exact (Child.inputEnded_send _ _).trans (ih hlive)
        · exact ih
  | close _ ih => exact ih.close
  | @readLoop p _ ih =>
    unfold Pipes.readLoop
    dsimp only
    split
    · split
      · intro hlive
        exact (Child.inputEnded_proceed _ _).trans (ih hlive)
      · intro hlive
        simpa [Child.finish] using ih hlive
    · exact ih
  | @closeReading p _ ih =>
    unfold Pipes.closeReading
    dsimp only
    split
    · refine Open.close ?_
      rintro ⟨⟩
    · exact ih.close

/-- **Pipes whose program got some bytes.** -/
def received (p : Pipes) (bytes : List UInt8) : Pipes :=
  if bytes.isEmpty then p else { p with child := p.child.send (bytes.map some) }

theorem received_received (h : p.child.ports.inputEnded = false) :
    (p.received a).received b = p.received (a ++ b) := by
  unfold received
  cases a with
  | nil => rfl
  | cons x a =>
    cases b with
    | nil => simp
    | cons y b => simp [Child.send_send _ h]

/-- **What a write does that succeeds.** -/
theorem write_eq_ok {data : ByteArray} {n : Nat} (h : (p.write data).1 = .ok n) :
    n = data.size ∧ p.stdin.live = true ∧
      (p.write data).2 = p.received (complete data.data.toList) := by
  rw [← LineEnding.toList_normalize]
  unfold Pipes.write at h ⊢
  cases hstdin : p.stdin.value with
  | none => simp [Handle.snapshot, hstdin] at h
  | some s =>
    simp only [Handle.snapshot, hstdin] at h ⊢
    refine ⟨?_, by simp [Handle.live, hstdin], ?_⟩
    · split at h
      · exact (Except.ok.inj h).symm
      · split at h
        · exact (Except.ok.inj h).symm
        · cases h
    · have hempty : (LineEnding.normalize data).1.isEmpty =
          (LineEnding.normalize data).1.data.toList.isEmpty := by
        rw [Bool.eq_iff_iff, List.isEmpty_iff, Array.toList_eq_nil_iff, ← Array.size_eq_zero_iff,
          ByteArray.size_data]
        simp [ByteArray.isEmpty]
      unfold received
      rw [← hempty]
      split at h
      · next hnone => rw [if_pos hnone, if_pos hnone]
      · next hsome =>
        rw [if_neg hsome, if_neg hsome]
        split at h
        · next hholds => rw [if_pos hholds]
        · cases h

/-- Successive writes: what each of them returns, and the pipes in the end. -/
def writes (p : Pipes) : List ByteArray → List (Except TerminalError Nat) × Pipes
  | [] => ([], p)
  | data :: rest =>
    let (result, p) := p.write data
    let (results, p) := p.writes rest
    (result :: results, p)

theorem writes_cons (data : ByteArray) (rest : List ByteArray) : p.writes (data :: rest) =
    ((p.write data).1 :: ((p.write data).2.writes rest).1, ((p.write data).2.writes rest).2) := rfl

/-- Some byte strings as lists. -/
def bytes (chunks : List ByteArray) : List (List UInt8) := chunks.map (·.data.toList)

/-- **Writes one after another that all succeed.** Each tells the size of its own data, and the
program is as if it had got at once what completing each of them gives. One write of the whole gives
it what completing the whole gives. That is the same if no line end is cut in two, and else has one
line feed less for each that is. -/
theorem written_in_pieces (hp : Reached p) (chunks : List ByteArray)
    (hok : ∀ result ∈ (p.writes chunks).1, ∃ n, result = .ok n) :
    (p.writes chunks).1 = chunks.map (fun data => .ok data.size) ∧
      (p.writes chunks).2 = p.received ((bytes chunks).flatMap complete) ∧
      (∀ whole : ByteArray, whole.data.toList = (bytes chunks).flatten →
        (∃ n, (p.write whole).1 = .ok n) →
          (p.write whole).2 = p.received (complete (bytes chunks).flatten)) ∧
      Completes (bytes chunks) := by
  suffices hboth : (p.writes chunks).1 = chunks.map (fun data => .ok data.size) ∧
      (p.writes chunks).2 = p.received ((bytes chunks).flatMap complete) by
    refine ⟨hboth.1, hboth.2, ?_, completes _⟩
    rintro whole hwhole ⟨n, hn⟩
    rw [(write_eq_ok hn).2.2, hwhole]
  induction chunks generalizing p with
  | nil => exact ⟨rfl, rfl⟩
  | cons data chunks ih =>
    rw [writes_cons] at hok ⊢
    obtain ⟨⟨n, hn⟩, hrest⟩ := List.forall_mem_cons.mp hok
    obtain ⟨rfl, hlive, hgot⟩ := write_eq_ok hn
    obtain ⟨hresults, hpipes⟩ := ih (hp.write data) hrest
    refine ⟨?_, ?_⟩
    · rw [hn, hresults, List.map_cons]
    · rw [hpipes, hgot, received_received (hp.open hlive)]
      rfl

/-! ### A line end in two writes -/

/-- Pipes of a program that does not read for a while. -/
def sleeper : Pipes := .ofBehaviour { command := "sleep" } (.sleeps 1 fun _ => .done)

/-- Two line ends, of which one is cut in two. -/
def twoLines : List ByteArray := [⟨#[120, 13]⟩, ⟨#[10, 13]⟩, ⟨#[]⟩, ⟨#[121]⟩]

theorem written_in_pieces_cut :
    (sleeper.writes twoLines).1 = twoLines.map (fun data => .ok data.size) ∧
      (sleeper.writes twoLines).2 = sleeper.received [120, 13, 10, 10, 13, 10, 121] ∧
      (∀ whole : ByteArray, whole.data.toList = (bytes twoLines).flatten →
        (∃ n, (sleeper.write whole).1 = .ok n) →
          (sleeper.write whole).2 = sleeper.received [120, 13, 10, 13, 10, 121]) ∧
      Completes (bytes twoLines) :=
  have hok : (sleeper.writes twoLines).1 = [.ok 2, .ok 2, .ok 0, .ok 1] := rfl
  written_in_pieces (.start _ _) twoLines (by
    show ∀ result ∈ (sleeper.writes twoLines).1, _
    simp [hok])

/-- A carriage return and a line feed: written at once, they are one line end; written one after the
other, they are two. -/
theorem line_end_doubled :
    (sleeper.write ⟨#[13, 10]⟩).1 = .ok 2 ∧
      (sleeper.write ⟨#[13, 10]⟩).2.child.ports.input = [some 13, some 10] ∧
      (sleeper.writes [⟨#[13]⟩, ⟨#[10]⟩]).1 = [.ok 1, .ok 1] ∧
      (sleeper.writes [⟨#[13]⟩, ⟨#[10]⟩]).2.child.ports.input = [some 13, some 10, some 10] :=
  ⟨rfl, rfl, rfl, rfl⟩

end Terminal.Pipes

end PaneRelay
