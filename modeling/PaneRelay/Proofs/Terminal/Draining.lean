import PaneRelay.Proofs.Batcher.AtMostOnce
import PaneRelay.Proofs.Terminal.Closing

/-! # What a closing leaves in the pipes

A loop asks for the handle of its stream before every read. The closing takes the handles once the
program has ended, and does not look at what is in the pipes; so a loop that asks after that ends
there, well, and what is still in its pipe is never handed on.

* `Behaviour.Tidy`: a program that does not write to a stream that it has given up.
* `Loop.Sound`: the reads of a loop account for what was written to its stream.
* `Scene.Sound`: a handle that is gone is that of a program that has ended.
* `Scene.CutOff`: a loop has asked for its handle in vain, with bytes in the pipe.
* `stranded_step`, `stranded_run`: nothing else leaves bytes behind.
* `ended_run`, `over_of_stuck`: after the end of the program, the loops come to their ends.
* `drained_iff`: what the read loop hands on, and when that is everything.
* `last_words_cut`: when it is not. -/

namespace PaneRelay

open Batcher (joined_append)
open Child (Stream Behaviour Ports)
open PaneSet (Reader Move)

namespace Child

/-! ### Programs that keep to their streams -/

/-- **A program that does not write to a stream that it has given up.** The system refuses such a
write, so nothing would come of it. -/
def Behaviour.Tidy : Behaviour → List Stream → Prop
  | .ends _, _ => True
  | .writes s _ next, gone => s ∉ gone ∧ (next ()).Tidy gone
  | .reads next, gone => ∀ x, (next x).Tidy gone
  | .sleeps _ next, gone => (next ()).Tidy gone
  | .asks next, gone => ∀ x, (next x).Tidy gone
  | .closes s next, gone => (next ()).Tidy (s :: gone)

/-- The same of a running program. -/
def Tidy (c : Child) : Prop := c.life.Tidy c.ports.givenUp

variable {c c' : Child} {s : Stream}

theorem not_holds_iff : c.holds s = false ↔ c.hasEnded = true ∨ s ∈ c.ports.givenUp := by
  grind [holds]

theorem Tidy.advance (h : c.Tidy) (ha : c.advance = some c') : c'.Tidy := by
  obtain ⟨life, ports, pid⟩ := c
  cases life with
  | ends status => cases ha
  | writes t data next =>
    obtain rfl := Option.some.inj ha
    cases t <;> exact h.2
  | reads next =>
    obtain ⟨x, input, rfl⟩ := advance_reads ha
    exact h x
  | asks next =>
    obtain rfl := Option.some.inj ha
    exact h _
  | sleeps | closes =>
    obtain rfl := Option.some.inj ha
    exact h

/-- **Nothing is written to a stream that nobody holds**, and nobody comes to hold it. -/
theorem Tidy.silent (h : c.Tidy) (ha : c.advance = some c') (hs : c.holds s = false) :
    c.utters s = ByteArray.empty ∧ c'.holds s = false := by
  obtain he | hs := not_holds_iff.mp hs
  · rw [advance_of_hasEnded he] at ha
    cases ha
  · refine ⟨?_, not_holds_iff.mpr (.inr (givenUp_advance ha hs))⟩
    obtain ⟨life, ports, pid⟩ := c
    cases life with
    | writes t data next => exact if_neg fun ht : t = s => h.1 (ht ▸ hs)
    | _ => rfl

end Child

namespace Terminal

/-! ### The accounts of a loop -/

/-- What a loop has in its hand. -/
def inHand : Reader → List ByteArray
  | .holds chunk => [chunk]
  | _ => []

/-- What a loop's last read has returned. -/
def farewell : Reader → List (Except TerminalError ByteArray)
  | .ended => [.error .closed]
  | _ => []

/-- What a loop has taken from its stream. -/
def Loop.taken (l : Loop) : List ByteArray := l.handed ++ inHand l.reader

/-- **The accounts of a loop**, given what was written to its stream and what is still there: its
reads have returned what it has taken, in chunks that are not empty, and nothing else is missing. -/
structure Loop.Sound (l : Loop) (said pending : ByteArray) : Prop where
  results : l.results = l.taken.map .ok ++ farewell l.reader
  filled : ∀ c ∈ l.taken, c.isEmpty = false
  said : said = Batcher.joined l.taken ++ pending

namespace Loop.Sound

variable {l : Loop} {said pending : ByteArray}

theorem begun : ({} : Loop).Sound ByteArray.empty ByteArray.empty := ⟨rfl, nofun, rfl⟩

/-- More is written. -/
theorem more (h : l.Sound said pending) (data : ByteArray) :
    l.Sound (said ++ data) (pending ++ data) :=
  ⟨h.results, h.filled, by rw [h.said, ByteArray.append_assoc]⟩

theorem admitted (h : l.Sound said pending) (hr : l.reader = .asks) :
    Sound { l with reader := .reads } said pending := by
  obtain ⟨reader, results, handed⟩ := l
  obtain rfl := hr
  exact ⟨h.results, h.filled, h.said⟩

theorem ended (h : l.Sound said pending) (hr : l.reader = .asks ∨ l.reader = .reads) :
    Sound { l with reader := .ended, results := l.results ++ [.error .closed] } said pending := by
  obtain ⟨reader, results, handed⟩ := l
  obtain rfl | rfl := hr <;>
  · have hres : results = (handed ++ []).map .ok ++ [] := h.results
    exact ⟨by rw [hres, List.append_nil]; rfl, h.filled, h.said⟩

theorem got (h : l.Sound said pending) (hr : l.reader = .reads) {chunk rest : ByteArray}
    (hne : ¬ chunk.isEmpty = true) (ht : chunk ++ rest = pending) :
    Sound { l with reader := .holds chunk, results := l.results ++ [.ok chunk] } said rest := by
  obtain ⟨reader, results, handed⟩ := l
  obtain rfl := hr
  have hres : results = (handed ++ []).map .ok ++ [] := h.results
  have hsaid : said = Batcher.joined (handed ++ []) ++ pending := h.said
  simp only [List.append_nil] at hres hsaid
  refine ⟨?_, fun c hc => ?_, ?_⟩
  · simp [hres, taken, inHand, farewell]
  · obtain hc | hc := List.mem_append.mp hc
    · exact h.filled c (List.mem_append_left _ hc)
    · obtain rfl := List.mem_singleton.mp hc
      exact Bool.eq_false_iff.mpr hne
  · have hone : Batcher.joined [chunk] = chunk := ByteArray.append_empty
    show said = Batcher.joined (handed ++ [chunk]) ++ rest
    rw [hsaid, ← ht, joined_append, hone, ByteArray.append_assoc]

theorem handed (h : l.Sound said pending) {chunk : ByteArray} (hr : l.reader = .holds chunk) :
    Sound { l with reader := .asks, handed := l.handed ++ [chunk] } said pending := by
  obtain ⟨reader, results, handed⟩ := l
  obtain rfl := hr
  have htaken : taken { reader := .asks, results, handed := handed ++ [chunk] } =
      taken { reader := .holds chunk, results, handed } := List.append_nil _
  exact ⟨htaken ▸ h.results, htaken ▸ h.filled, htaken ▸ h.said⟩

end Loop.Sound

/-- A read loop hands on all chunks that are not empty. -/
theorem drain_map_ok {chunks : List ByteArray} (h : ∀ c ∈ chunks, c.isEmpty = false)
    (rest : List (Except TerminalError ByteArray)) :
    drain (chunks.map .ok ++ rest) = (chunks ++ (drain rest).1, (drain rest).2) := by
  have hall : chunks.filter (fun c => !c.isEmpty) = chunks :=
    List.filter_eq_self.mpr fun c hc => by rw [h c hc]; rfl
  rw [drain_ok_append, hall]

/-- **A loop that has come to its end** has handed on what it has taken, and all is well. -/
theorem Loop.Sound.drained {l : Loop} {said pending : ByteArray} (h : l.Sound said pending)
    (he : l.reader.hasEnded = true) :
    drain l.results = (l.handed, .ok ()) ∧ said = Batcher.joined l.handed ++ pending := by
  obtain ⟨reader, results, handed⟩ := l
  cases reader with
  | ended =>
    have htaken : taken { reader := .ended, results, handed } = handed := List.append_nil _
    obtain ⟨hres, hfill, hsaid⟩ := h
    rw [htaken] at hres hfill hsaid
    refine ⟨?_, hsaid⟩
    rw [hres, drain_map_ok hfill]
    simp [farewell, drain]
  | _ => cases he

namespace Scene

/-! ### What always holds -/

variable {z y : Scene}

/-- **What always holds:** a handle is gone only after the program was seen to have ended, the
accounts of the loops are right, and a loop that has come to its end reads a stream that nobody
holds. -/
structure Sound (z : Scene) : Prop where
  tidy : z.pipes.child.Tidy
  loops : ∀ s, (z.loops s).Sound (z.said s) (z.pending s)
  gone : ∀ s, z.live s = false → z.stage.left < 2
  seen : z.stage.left ≤ 2 → z.pipes.child.hasEnded = true
  dry : ∀ s, (z.loops s).reader.hasEnded = true → z.pipes.child.holds s.stream = false

theorem sound_begun (c : TerminalConfig) {b : Behaviour} (hb : b.Tidy []) (input : List UInt8) :
    (begun c b input).Sound where
  tidy := hb
  loops s := by cases s <;> exact .begun
  gone s h := by cases s <;> cases h
  seen h := by
    have : 4 ≤ 2 := h
    omega
  dry _ h := absurd h Bool.false_ne_true

/-- What a read does to the program: some of one stream is taken. -/
structure Taken (s : Side) (c c' : Child) : Prop where
  life : c'.life = c.life
  givenUp : c'.ports.givenUp = c.ports.givenUp
  pending : ∀ t ≠ s, c'.ports.pending t.stream = c.ports.pending t.stream

theorem Taken.refl (s : Side) (c : Child) : Taken s c c := ⟨rfl, rfl, fun _ _ => rfl⟩

theorem taken_of_take {s : Side} {c c' : Child} {max : Nat} {chunk : ByteArray}
    (h : c.take s.stream max = (chunk, c')) : Taken s c c' := by
  obtain rfl : (c.take s.stream max).2 = c' := congrArg Prod.snd h
  refine ⟨rfl, ?_, fun t ht => Child.pending_take c (Side.stream_ne ht) max⟩
  cases s <;> rfl

theorem append_of_take {s : Side} {c c' : Child} {max : Nat} {chunk : ByteArray}
    (h : c.take s.stream max = (chunk, c')) :
    chunk ++ c'.ports.pending s.stream = c.ports.pending s.stream := by
  have htake := c.take_append s.stream max
  rwa [h] at htake

theorem Taken.holds {s : Side} {c c' : Child} (h : Taken s c c') (t : Stream) :
    c'.holds t = c.holds t := by
  unfold Child.holds Child.hasEnded
  rw [h.life, h.givenUp]

/-- A loop moves, and its accounts stay right. -/
theorem Sound.put (h : z.Sound) {s : Side} {l : Loop} {child : Child}
    (hc : Taken s z.pipes.child child) (hl : l.Sound (z.said s) (child.ports.pending s.stream))
    (hd : l.reader.hasEnded = true → z.pipes.child.holds s.stream = false) :
    (z.put s l child).Sound where
  tidy := by
    show child.life.Tidy child.ports.givenUp
    rw [hc.life, hc.givenUp]
    exact h.tidy
  loops t := by
    by_cases ht : t = s
    · subst ht
      rw [put_self]
      exact hl
    · rw [put_of_ne z ht]
      show (z.loops t).Sound (z.said t) (child.ports.pending t.stream)
      rw [hc.pending t ht]
      exact h.loops t
  gone t := by
    rw [put_live]
    exact h.gone t
  seen := by
    show _ → child.life.hasEnded = true
    rw [hc.life]
    exact h.seen
  dry t := by
    show _ → child.holds t.stream = false
    rw [hc.holds]
    by_cases ht : t = s
    · subst ht
      rw [put_self]
      exact hd
    · rw [put_of_ne z ht]
      exact h.dry t

theorem Sound.shut (h : z.Sound) (hs : Closes z y) : y.Sound where
  tidy := by
    show y.pipes.child.life.Tidy y.pipes.child.ports.givenUp
    rw [hs.life, hs.givenUp]
    exact h.tidy
  loops t := by
    rw [hs.loops, hs.said, hs.pending]
    exact h.loops t
  gone t hl := by
    have hless := hs.left
    obtain hl' | hl' := hs.live t
    · have := h.gone t (hl'.symm.trans hl)
      omega
    · exact hl'
  seen hl := by
    have hless := hs.left
    show y.pipes.child.life.hasEnded = true
    rw [hs.life]
    obtain hl | hl := Nat.lt_or_eq_of_le hl
    · exact h.seen (by omega)
    · exact hs.seen hl
  dry t := by
    unfold Child.holds Child.hasEnded
    rw [hs.loops, hs.life, hs.givenUp]
    exact h.dry t

/-- **A step leaves it so.** -/
theorem Sound.step (h : z.Sound) {a : Step} (hs : z.step a = some y) : y.Sound := by
  cases step_change hs with
  | @act child ha =>
    refine ⟨h.tidy.advance ha, fun s => ?_, fun s hl => h.gone s ?_, fun hl => ?_, fun s he => ?_⟩
    · show (z.loops s).Sound _ (child.ports.pending s.stream)
      rw [Child.pending_advance ha s.stream_ne_input]
      exact (h.loops s).more _
    · cases s <;> exact hl
    · -- a program that has ended does nothing
      rw [Child.advance_of_hasEnded (h.seen hl)] at ha
      cases ha
    · exact (h.tidy.silent ha (h.dry s he)).2
  | admitted hr => exact h.put (.refl ..) ((h.loops _).admitted hr) nofun
  | refused hr hl =>
    have hended := h.seen (Nat.le_of_lt (h.gone _ hl))
    exact h.put (.refl ..) ((h.loops _).ended (.inl hr))
      fun _ => Child.not_holds_iff.mpr (.inl hended)
  | get hr hne ht =>
    exact h.put (taken_of_take ht) ((h.loops _).got hr hne (append_of_take ht)) nofun
  | halt hr hp hh => exact h.put (.refl ..) ((h.loops _).ended (.inr hr)) fun _ => hh
  | hand hr => exact h.put (.refl ..) ((h.loops _).handed hr) nofun
  | shut hs => exact h.shut hs

theorem Sound.run (h : z.Sound) {steps : List Step} (hr : z.run steps = some y) : y.Sound :=
  run_induct (fun _ _ _ hz hs => hz.step hs) h hr

/-! ### Loops that are cut off -/

/-- A loop has come to its end, and there are bytes left for it. -/
def Stranded (z : Scene) (s : Side) : Prop :=
  (z.loops s).reader.hasEnded = true ∧ (z.pending s).isEmpty = false

/-- A step by which a loop asks for its handle in vain, with bytes left for it. -/
def Cuts (z : Scene) (s : Side) (a : Step) : Prop :=
  a = .read s .ask ∧ z.live s = false ∧ (z.pending s).isEmpty = false

theorem not_cuts {s : Side} {a : Step} (ha : a ≠ .read s .ask) : ¬ z.Cuts s a := fun hc => ha hc.1

/-- **A loop is cut off** somewhere in a run. -/
def CutOff (z : Scene) (s : Side) (steps : List Step) : Prop :=
  ∃ before a after y, steps = before ++ a :: after ∧ z.run before = some y ∧ y.Cuts s a

theorem cutOff_nil (s : Side) : ¬ z.CutOff s [] := by
  rintro ⟨before, a, after, y, h, -⟩
  exact absurd h.symm (by simp)

theorem cutOff_cons {s : Side} {a : Step} (hs : z.step a = some y) (steps : List Step) :
    z.CutOff s (a :: steps) ↔ z.Cuts s a ∨ y.CutOff s steps := by
  constructor
  · rintro ⟨before, a', after, u, h, hr, hc⟩
    cases before with
    | nil =>
      obtain ⟨rfl, rfl⟩ := List.cons.inj h
      obtain rfl : z = u := Option.some.inj hr
      exact .inl hc
    | cons b before =>
      obtain ⟨rfl, rfl⟩ := List.cons.inj h
      rw [run_cons, hs, Option.bind_some] at hr
      exact .inr ⟨before, a', after, u, rfl, hr, hc⟩
  · rintro (hc | ⟨before, a', after, u, rfl, hr, hc⟩)
    · exact ⟨[], a, steps, z, rfl, rfl, hc⟩
    · refine ⟨a :: before, a', after, u, rfl, ?_, hc⟩
      rw [run_cons, hs, Option.bind_some, hr]

/-- What the loop of one side does is nothing to the other. -/
theorem stranded_put_of_ne {s t : Side} (l : Loop) {child : Child}
    (hc : Taken t z.pipes.child child) (h : s ≠ t) :
    (z.put t l child).Stranded s ↔ z.Stranded s := by
  unfold Stranded
  rw [put_of_ne z h]
  show _ ∧ (child.ports.pending s.stream).isEmpty = false ↔ _
  rw [hc.pending s h]
  rfl

/-- A loop that goes on leaves nothing behind. -/
theorem stranded_put {t : Side} {l : Loop} {child : Child} (hc : Taken t z.pipes.child child)
    (hl : l.reader.hasEnded = false) (hz : (z.loops t).reader.hasEnded = false) (s : Side) :
    (z.put t l child).Stranded s ↔ z.Stranded s := by
  by_cases hst : s = t
  · subst hst
    simp [Stranded, hl, hz]
  · exact stranded_put_of_ne l hc hst

/-- **A loop leaves something behind** only if it is cut off. -/
theorem stranded_step (h : z.Sound) {a : Step} (hs : z.step a = some y) (s : Side) :
    y.Stranded s ↔ z.Stranded s ∨ z.Cuts s a := by
  cases step_change hs with
  | @act child ha =>
    rw [or_iff_left (not_cuts (by nofun))]
    refine and_congr_right fun he => ?_
    show (child.ports.pending s.stream).isEmpty = false ↔ _
    rw [Child.pending_advance ha s.stream_ne_input, (h.tidy.silent ha (h.dry s he)).1,
      ByteArray.append_empty]
    rfl
  | @admitted t hr hl =>
    have hcut : ¬ z.Cuts s (.read t .ask) := by
      rintro ⟨ha, hd, -⟩
      obtain ⟨rfl, -⟩ := Step.read.inj ha
      exact absurd (hl.symm.trans hd) (by decide)
    rw [or_iff_left hcut, stranded_put (.refl ..) rfl (by rw [hr]; rfl)]
  | @refused t hr hl =>
    by_cases hst : s = t
    · -- this is where a loop is cut off
      subst hst
      have hz : ¬ z.Stranded s := by
        rintro ⟨he, -⟩
        rw [hr] at he
        cases he
      rw [or_iff_right hz]
      exact ⟨fun hy => ⟨rfl, hl, hy.2⟩, fun hc => ⟨by rw [put_self]; rfl, hc.2.2⟩⟩
    · have hcut : ¬ z.Cuts s (.read t .ask) := not_cuts fun ha => hst (Step.read.inj ha).1.symm
      rw [or_iff_left hcut, stranded_put_of_ne _ (.refl ..) hst]
  | get hr hne ht =>
    rw [or_iff_left (not_cuts (by nofun)), stranded_put (taken_of_take ht) rfl (by rw [hr]; rfl)]
  | @halt t hr hp hh =>
    rw [or_iff_left (not_cuts (by nofun))]
    by_cases hst : s = t
    · -- the pipe is empty
      subst hst
      have hz : ¬ z.Stranded s := fun hz => absurd (hp.symm.trans hz.2) (by decide)
      exact iff_of_false (fun hy => absurd (hp.symm.trans hy.2) (by decide)) hz
    · exact stranded_put_of_ne _ (.refl ..) hst
  | hand hr =>
    rw [or_iff_left (not_cuts (by nofun)), stranded_put (.refl ..) rfl (by rw [hr]; rfl)]
  | shut hs =>
    rw [or_iff_left (not_cuts (by nofun))]
    unfold Stranded
    rw [hs.loops, hs.pending]

theorem stranded_run (h : z.Sound) {steps : List Step} (hr : z.run steps = some y) (s : Side) :
    y.Stranded s ↔ z.Stranded s ∨ z.CutOff s steps := by
  induction steps generalizing z with
  | nil =>
    obtain rfl : z = y := by simpa using hr
    rw [or_iff_left (cutOff_nil s)]
  | cons a steps ih =>
    obtain ⟨u, hu, hr⟩ := Option.bind_eq_some_iff.mp hr
    rw [ih (h.step hu) hr, stranded_step h hu, cutOff_cons hu, or_assoc]

/-! ### The loops come to their ends -/

/-- How far a loop is from its next read, or from its end. -/
def rank : Reader → Nat
  | .asks => 2
  | .reads => 1
  | .holds _ => 3
  | .ended => 0

/-- How much the loop of a side has still to do, if nothing more is written. -/
def toDoOn (z : Scene) (s : Side) : Nat := 3 * (z.pending s).size + rank (z.loops s).reader

/-- **How much is still to do** once the program has ended. -/
def toDo (z : Scene) : Nat := z.toDoOn .output + z.toDoOn .complaint + z.stage.left

theorem toDo_put {s : Side} {l : Loop} {child : Child} (hc : Taken s z.pipes.child child)
    (hl : 3 * (child.ports.pending s.stream).size + rank l.reader < z.toDoOn s) :
    (z.put s l child).toDo < z.toDo := by
  have hself : (z.put s l child).toDoOn s < z.toDoOn s := by
    unfold toDoOn at *
    rw [put_self]
    exact hl
  have hother : ∀ t ≠ s, (z.put s l child).toDoOn t = z.toDoOn t := fun t ht => by
    unfold toDoOn
    rw [put_of_ne z ht]
    show 3 * (child.ports.pending t.stream).size + _ = _
    rw [hc.pending t ht]
    rfl
  have hstage : (z.put s l child).stage = z.stage := rfl
  unfold toDo
  rw [hstage]
  cases s with
  | output =>
    have := hother .complaint (by decide)
    omega
  | complaint =>
    have := hother .output (by decide)
    omega

theorem Taken.hasEnded {s : Side} {c c' : Child} (h : Taken s c c') : c'.hasEnded = c.hasEnded :=
  congrArg Behaviour.hasEnded h.life

/-- A loop that moves without a read has less to do. -/
theorem toDo_put_self {s : Side} {l : Loop} (hl : rank l.reader < rank (z.loops s).reader) :
    (z.put s l z.pipes.child).toDo < z.toDo :=
  toDo_put (.refl ..) (Nat.add_lt_add_left hl _)

/-- **After the end of the program** each step leaves less to do. -/
theorem ended_step (he : z.pipes.child.hasEnded = true) {a : Step} (hs : z.step a = some y) :
    y.pipes.child.hasEnded = true ∧ y.toDo < z.toDo := by
  cases step_change hs with
  | act ha =>
    rw [Child.advance_of_hasEnded he] at ha
    cases ha
  | admitted hr | refused hr | halt hr | hand hr =>
    exact ⟨he, toDo_put_self (by simp [hr, rank])⟩
  | @get s chunk child hr hne ht =>
    have htaken := taken_of_take ht
    have hbytes := congrArg ByteArray.size (append_of_take ht)
    have hsome : chunk.size ≠ 0 := fun h0 =>
      hne (Batcher.isEmpty_iff.mpr (ByteArray.size_eq_zero_iff.mp h0))
    refine ⟨htaken.hasEnded.trans he, toDo_put htaken ?_⟩
    rw [ByteArray.size_append] at hbytes
    unfold toDoOn pending
    rw [hr, ← hbytes]
    simp only [rank]
    omega
  | shut hs =>
    refine ⟨(congrArg Behaviour.hasEnded hs.life).trans he, ?_⟩
    have hleft := hs.left
    unfold toDo toDoOn
    rw [hs.loops, hs.pending, hs.pending]
    omega

theorem ended_run (he : z.pipes.child.hasEnded = true) {steps : List Step}
    (hr : z.run steps = some y) :
    y.pipes.child.hasEnded = true ∧ steps.length + y.toDo ≤ z.toDo :=
  ⟨run_induct (fun _ _ _ he hs => (ended_step he hs).1) he hr,
    foldlM_length_le (fun _ _ _ he hs => ended_step he hs) he hr⟩

/-- **A loop can move** as long as it has not come to its end. -/
theorem exists_move (he : z.pipes.child.hasEnded = true) {s : Side}
    (hr : (z.loops s).reader.hasEnded = false) : ∃ m y, z.step (.read s m) = some y := by
  cases h : (z.loops s).reader with
  | asks => exact ⟨.ask, _, step_read.mpr ⟨_, _, _, by rw [h]; rfl, rfl, rfl⟩⟩
  | reads =>
    cases hp : (z.pending s).isEmpty with
    | true => exact ⟨.halt, _, step_halt h hp (Child.not_holds_iff.mpr (.inl he))⟩
    | false => exact ⟨.get _, _, step_get h hp (Prod.eta _).symm⟩
  | holds chunk => exact ⟨.hand, _, step_read.mpr ⟨_, _, _, by rw [h]; rfl, rfl, rfl⟩⟩
  | ended =>
    rw [h] at hr
    cases hr

/-- **A closing can go on** as long as it is not over. -/
theorem exists_shut (he : z.pipes.child.hasEnded = true) (hs : z.stage ≠ .closed) :
    ∃ y, z.step .shut = some y := by
  show ∃ y, z.shut = some y
  unfold shut
  cases h : z.stage with
  | closed => exact absurd h hs
  | detached => exact ⟨_, if_pos he⟩
  | _ => exact ⟨_, rfl⟩

/-- **Where nothing can happen any more**, all is over. -/
theorem over_of_stuck (he : z.pipes.child.hasEnded = true) (hstuck : ∀ a, z.step a = none) :
    z.Over ∧ z.stage = .closed := by
  constructor
  · intro s
    by_contra hr
    obtain ⟨m, y, hy⟩ := exists_move he (Bool.eq_false_iff.mpr hr)
    rw [hstuck] at hy
    cases hy
  · by_contra hs
    obtain ⟨y, hy⟩ := exists_shut he hs
    rw [hstuck] at hy
    cases hy

/-! ### What the read loop hands on -/

theorem eq_append_iff {handed said pending : ByteArray} (h : said = handed ++ pending) :
    handed = said ↔ pending.isEmpty = true := by
  rw [Batcher.isEmpty_iff, h]
  constructor
  · intro he
    exact (ByteArray.append_right_inj handed).mp (he.symm.trans ByteArray.append_empty.symm)
  · rintro rfl
    exact ByteArray.append_empty.symm

theorem over_iff : z.Over ↔
    (z.loops .output).reader.hasEnded = true ∧ (z.loops .complaint).reader.hasEnded = true := by
  refine ⟨fun h => ⟨h .output, h .complaint⟩, fun ⟨hout, hcomplaint⟩ s => ?_⟩
  cases s with
  | output => exact hout
  | complaint => exact hcomplaint

/-- Two loops that have come to their ends report that all is well. -/
theorem Sound.result (h : z.Sound) (ho : z.Over) : z.result = .ok () := by
  unfold Scene.result
  rw [((h.loops .output).drained (ho _)).1, ((h.loops .complaint).drained (ho _)).1]
  rfl

/-- **What a read loop hands on while the program is closed.** Once the program has ended, both
loops come to their ends after so many steps at most. The read loop then returns, all is well, and
what it was given of each stream is the beginning of what was written there. What is missing is what
is left in the pipe; that is nothing just if the loop of that stream was not cut off. -/
theorem drained_iff {c : TerminalConfig} {b : Behaviour} {input : List UInt8} {steps : List Step}
    (hb : b.Tidy []) (hr : (begun c b input).run steps = some z) :
    (z.pipes.child.hasEnded = true → ∀ more y, z.run more = some y →
      more.length ≤ z.toDo ∧ ((∀ a, y.step a = none) → y.Over ∧ y.stage = .closed)) ∧
    (z.Over → z.result = .ok () ∧ ∀ s,
      (drain (z.loops s).results).1 = (z.loops s).handed ∧
      z.said s = Batcher.joined (z.loops s).handed ++ z.pending s ∧
      (Batcher.joined (z.loops s).handed = z.said s ↔ ¬ (begun c b input).CutOff s steps)) := by
  have hsound := sound_begun c hb input
  have h := hsound.run hr
  constructor
  · intro he more y hy
    obtain ⟨hey, hle⟩ := ended_run he hy
    exact ⟨by omega, over_of_stuck hey⟩
  · intro hover
    have hdrained s := (h.loops s).drained (hover s)
    refine ⟨h.result hover, fun s => ⟨congrArg Prod.fst (hdrained s).1, (hdrained s).2, ?_⟩⟩
    have hfresh : ¬ (begun c b input).Stranded s := fun hs => nomatch hs.1
    have hcut := stranded_run hsound hr s
    rw [or_iff_right hfresh] at hcut
    rw [eq_append_iff (hdrained s).2, ← hcut, ← Bool.not_eq_false]
    exact not_congr (and_iff_right (hover s)).symm

/-- A program that says something, waits for the end of its input, and says something more. -/
def lastWords : Behaviour :=
  .writes .output "one".toUTF8 fun _ => .reads fun _ => .writes .output "two".toUTF8 fun _ => .done

/-- The program has said something, and the loop of its output has handed that on. -/
def opening : List Step :=
  [.act, .read .output .ask, .read .output (.get "one".toUTF8), .read .output .hand,
    .read .complaint .ask]

/-- The input ends, the program says the rest and ends, and the handles are taken. -/
def closing : List Step := [.shut, .act, .act, .shut, .shut, .shut]

/-- The loop of the output is in a read when the closing begins. -/
def inTime : List Step :=
  opening ++ [.read .output .ask] ++ closing ++
    [.read .output (.get "two".toUTF8), .read .output .hand, .read .output .ask,
      .read .complaint .halt]

/-- The loop of the output asks for its handle when the closing is over. -/
def tooLate : List Step :=
  opening ++ closing ++ [.read .output .ask, .read .complaint .halt]

theorem tidy_lastWords : lastWords.Tidy [] :=
  ⟨List.not_mem_nil, fun _ => ⟨List.not_mem_nil, trivial⟩⟩

theorem drained_in_time : ∃ z, (begun { command := "sh" } lastWords []).run inTime = some z ∧
    z.result = .ok () ∧ ¬ (begun { command := "sh" } lastWords []).CutOff .output inTime := by
  have hrun : ((begun { command := "sh" } lastWords []).run inTime).map (fun z =>
      ((z.loops .output).reader.hasEnded, (z.loops .complaint).reader.hasEnded,
        decide (Batcher.joined (z.loops .output).handed = z.said .output))) =
      some (true, true, true) := by decide +kernel
  obtain ⟨z, hz, hend⟩ := Option.map_eq_some_iff.mp hrun
  simp only [Prod.mk.injEq, decide_eq_true_eq] at hend
  obtain ⟨hout, hcomplaint, hall⟩ := hend
  obtain ⟨hresult, hsides⟩ := (drained_iff tidy_lastWords hz).2 (over_iff.mpr ⟨hout, hcomplaint⟩)
  exact ⟨z, hz, hresult, (hsides .output).2.2.mp hall⟩

/-- **A loop that is cut off.** The program has ended by itself, the closing and the read loop
report that all is well, and the program's last words are lost. -/
theorem last_words_cut : ∃ z, (begun { command := "sh" } lastWords []).run tooLate = some z ∧
    z.pipes.child.hasEnded = true ∧ z.stage = .closed ∧ z.Over ∧ z.result = .ok () ∧
      z.said .output = "onetwo".toUTF8 ∧
      Batcher.joined (z.loops .output).handed = "one".toUTF8 := by
  have hrun : ((begun { command := "sh" } lastWords []).run tooLate).map (fun z =>
      ((z.loops .output).reader.hasEnded, (z.loops .complaint).reader.hasEnded,
        z.pipes.child.hasEnded, z.stage, z.said .output,
        Batcher.joined (z.loops .output).handed)) =
      some (true, true, true, .closed, "onetwo".toUTF8, "one".toUTF8) := by
    decide +kernel
  obtain ⟨z, hz, hend⟩ := Option.map_eq_some_iff.mp hrun
  simp only [Prod.mk.injEq] at hend
  obtain ⟨hout, hcomplaint, hended, hstage, hsaid, hhanded⟩ := hend
  have hover : z.Over := over_iff.mpr ⟨hout, hcomplaint⟩
  have hsound : z.Sound := (sound_begun _ tidy_lastWords []).run hz
  exact ⟨z, hz, hended, hstage, hover, hsound.result hover, hsaid, hhanded⟩

end Scene

end Terminal

end PaneRelay
