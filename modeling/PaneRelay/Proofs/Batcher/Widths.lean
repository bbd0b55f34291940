import PaneRelay.Proofs.Batcher.Work
import PaneRelay.Proofs.Supervisor.Counting

/-! # A batcher in machine words

The tick of the loop doubles while there is nothing to do, and the pause of its supervisor doubles
from failure to failure; both are cut at a limit each time, so that neither gets out of bounds
however long the loop runs.

In memory a buffer has room for more than it holds. A flush gives room back if there is more of it
than four full buffers need, a product that has to fit into a word. It is computed after the buffer
was emptied: where it does not fit and that is noticed, the bytes are lost.

* `Steady`: times within their bounds; `Steady.run`: they stay there.
* `Store`, `takeWhere`: buffers in memory, and what a flush does to them.
* `Flushes`: flushes in memory do what they should; `flushes_some`: they do if the product is
  anything at all; `takeWhere_none`: what becomes of one without a product.
* `flushes_iff`: when flushes in memory do what they should on every run. -/

namespace PaneRelay.Batcher

variable {q : BatchPolicy} {r : RestartPolicy} {b b' : Batcher}

/-! ### Times -/

/-- **The task keeps its times within bounds**: the tick, and the pause of the supervisor. -/
def Task.Within (q : BatchPolicy) (r : RestartPolicy) : Task → Prop
  | .active loop period _ =>
    period ≤ max q.interval q.idleInterval ∧ loop.streak.backoff ≤ r.maxBackoff
  | _ => True

/-- **A batcher with some policies** whose times are within their bounds. -/
structure Steady (q : BatchPolicy) (r : RestartPolicy) (b : Batcher) : Prop where
  policy : b.policy = q
  restart : b.restart = r
  task : b.task.Within q r

theorem nextPeriod_le (q : BatchPolicy) (period flushed : Nat) (pending : Bool) :
    nextPeriod q period flushed pending ≤ max q.interval q.idleInterval := by
  unfold nextPeriod
  split <;> omega

/-- A write leaves all but the buffers, the wake-up and the sink as it is. -/
theorem write_eq (b : Batcher) (p : PaneId) (d : ByteArray) :
    ∃ panes pool wake sink, (b.write p d).2 = { b with panes, pool, wake, sink } := by
  unfold write
  split
  · exact ⟨_, _, _, _, rfl⟩
  · split
    · exact ⟨_, _, _, _, rfl⟩
    · dsimp only
      unfold signal
      split
      · exact ⟨_, _, _, _, rfl⟩
      · exact ⟨_, _, _, _, rfl⟩

namespace Steady

theorem fresh (q : BatchPolicy) (r : RestartPolicy) (fate : Nat → Option String) :
    Steady q r (.fresh q r fate) := ⟨rfl, rfl, trivial⟩

theorem write (h : Steady q r b) (p : PaneId) (d : ByteArray) : Steady q r (b.write p d).2 := by
  obtain ⟨panes, pool, wake, sink, hwrite⟩ := write_eq b p d
  rw [hwrite]
  exact ⟨h.policy, h.restart, h.task⟩

theorem drain (h : Steady q r b) (d : Drain) : Steady q r (b.drain d).2 := by
  obtain ⟨pool, -, hd⟩ := drain_eq b d
  rw [hd]
  exact ⟨h.policy, h.restart, h.task⟩

/-- **A look** cuts the tick, or ends the attempt. -/
theorem look (hr : r.initialBackoff ≤ r.maxBackoff) (h : Steady q r b) {loop : Supervisor.State}
    {period : Nat} (ht : (Task.active loop period 0).Within q r) :
    Steady q r (b.look loop period) := by
  have hround : Steady q r b.flushDue.2 := h.drain .round
  unfold Batcher.look
  generalize b.flushDue = x at hround
  obtain ⟨e, b'⟩ := x
  cases e with
  | none => exact ⟨hround.policy, hround.restart, hround.policy ▸ nextPeriod_le _ _ _ _, ht.2⟩
  | some e =>
    have hpause := Supervisor.finish_backoff_le hr ht.2 loopName b'.now (.panicked (some e))
    exact ⟨hround.policy, hround.restart, ht.1, hround.restart ▸ hpause⟩

/-- **A step of the loop.** -/
theorem turned (hr : r.initialBackoff ≤ r.maxBackoff) (h : Steady q r b) (hb : Turned b b') :
    Steady q r b' := by
  have ht := h.task
  cases hb with
  | ended => exact ⟨h.policy, h.restart, trivial⟩
  | linked => exact ⟨h.policy, h.restart, ht⟩
  | dropped task =>
    rw [task] at ht
    exact ⟨h.policy, h.restart, ht.1, by rw [Supervisor.cancel_streak]; exact ht.2⟩
  | began task =>
    rw [task] at ht
    exact ⟨h.policy, h.restart, h.policy ▸ Nat.le_max_left _ _,
      by rw [Supervisor.begin_streak]; exact ht.2⟩
  | woken task =>
    rw [task] at ht
    exact look hr (b := { b with wake := false }) ⟨h.policy, h.restart, h.task⟩ ht
  | ticked task =>
    rw [task] at ht
    exact look hr h ht
  | resumed task =>
    rw [task] at ht
    exact ⟨h.policy, h.restart, ht.1, h.restart ▸ Supervisor.resume_backoff_le (h.restart ▸ ht.2)⟩

/-- **Turns of the loop and ticks of the clock.** -/
theorem passing (hr : r.initialBackoff ≤ r.maxBackoff) (h : Steady q r b) {ms : List Move}
    (hms : ∀ m ∈ ms, m.isPassing = true) : Steady q r (b.run ms) := by
  induction ms generalizing b with
  | nil => exact h
  | cons m ms ih =>
    refine ih ?_ fun m' hm => hms m' (List.mem_cons_of_mem _ hm)
    cases m with
    | turn =>
      show Steady q r (b.turn.getD b)
      cases hturn : b.turn with
      | none => exact h
      | some b' => exact h.turned hr (turned_of_turn hturn)
    | tick ms => exact ⟨h.policy, h.restart, h.task⟩
    | op o => exact absurd (hms _ List.mem_cons_self) Bool.false_ne_true
    | halt => exact absurd (hms _ List.mem_cons_self) Bool.false_ne_true

theorem turns (hr : r.initialBackoff ≤ r.maxBackoff) (h : Steady q r b) (n : Nat) :
    Steady q r (turns n b) := by
  obtain ⟨k, hk⟩ := turns_eq_run n b
  rw [hk]
  exact h.passing hr fun m hm => by rw [List.eq_of_mem_replicate hm]; rfl

/-- **A move.** -/
theorem move (hr : r.initialBackoff ≤ r.maxBackoff) (h : Steady q r b) (m : Move) :
    Steady q r (b.move m) := by
  cases m with
  | turn =>
    have hturn : ∀ m ∈ [Move.turn], m.isPassing = true := by simp [Move.isPassing]
    exact h.passing hr hturn
  | tick ms => exact ⟨h.policy, h.restart, h.task⟩
  | halt => exact ⟨h.policy, h.restart, h.task⟩
  | op o =>
    cases o with
    | start =>
      show Steady q r b.start
      unfold start
      split
      · split
        · exact h
        · exact ⟨h.policy, h.restart, Nat.zero_le _, h.restart ▸ hr⟩
      · exact h
    | write p d => exact h.write p d
    | writes items => exact writeAll_induct (fun _ p d hb => hb.write p d) h items
    | sleep ms =>
      obtain ⟨moves, hmoves, he⟩ := advanceTo_eq_run (ms + 1) (Nat.le_add_right b.now ms)
      show Steady q r (b.advanceTo (ms + 1) (b.now + ms))
      rw [he]
      exact h.passing hr hmoves
    | remove p => exact h.drain (.remove p)
    | retain live => exact h.drain (.retain fun p => live.contains p)
    | cancel => exact ⟨h.policy, h.restart, h.task⟩
    | stop =>
      have hsettled := turns hr (b := { b with cancelled := true }) ⟨h.policy, h.restart, h.task⟩ 16
      exact ⟨hsettled.policy, hsettled.restart, hsettled.task⟩

/-- **Times stay within their bounds** on every run. -/
theorem run (hr : r.initialBackoff ≤ r.maxBackoff) (h : Steady q r b) (ms : List Move) :
    Steady q r (b.run ms) := by
  induction ms generalizing b with
  | nil => exact h
  | cons m ms ih => exact ih (h.move hr m)

end Steady

/-! ### Buffers in memory -/

/-- A number, if it fits into a word of 64 bits. -/
def word? (n : Nat) : Option Nat := if n < 2 ^ 64 then some n else none

theorem word?_of_lt {n : Nat} (h : n < 2 ^ 64) : word? n = some n := if_pos h

theorem word?_of_le {n : Nat} (h : 2 ^ 64 ≤ n) : word? n = none := if_neg (Nat.not_lt.mpr h)

/-- **A buffer in memory.** -/
structure Store extends Buffer where
  /-- How many bytes there is room for. -/
  room : Nat

/-- The room that four full buffers need, if that is a word. -/
def fourfold? (maxBytes : Nat) : Option Nat := word? (maxBytes * 4)

namespace Store

/-- The buffer after a flush, with the same room. -/
def emptied (s : Store) : Store := { s with toBuffer := s.cleared }

/-- **Takes what a buffer holds**, and gives room back if there is more than some limit. Without a
limit it breaks off, and then the buffer is empty already. -/
def take (maxBytes : Nat) (limit : Option Nat) (s : Store) : Option ByteArray × Store :=
  match limit with
  | none => (none, s.emptied)
  | some limit =>
    (some s.data,
      if limit < s.room then { s.emptied with room := min s.room maxBytes } else s.emptied)

/-- **No buffer keeps very much room.** -/
theorem take_room_le {maxBytes : Nat} (h : maxBytes * 4 < 2 ^ 64) (s : Store) :
    (s.take maxBytes (fourfold? maxBytes)).2.room ≤ maxBytes * 4 := by
  rw [fourfold?, word?_of_lt h]
  dsimp only [take]
  split
  · have hmin : min s.room maxBytes ≤ maxBytes := Nat.min_le_right _ _
    exact Nat.le_trans hmin (Nat.le_mul_of_pos_right _ (by decide))
  · next hroom => exact Nat.not_lt.mp hroom

end Store

/-- The buffers that some memory holds. -/
def view (stores : List (PaneId × Store)) : List (PaneId × Buffer) :=
  stores.map fun e => (e.1, e.2.toBuffer)

/-- **A flush in memory:** buffers that meet a condition are taken one after the other. The chunks,
unless it breaks off, and the buffers after it. -/
def takeWhere (maxBytes : Nat) (limit : Option Nat) (ready : Buffer → Bool) :
    List (PaneId × Store) → Option (List Chunk) × List (PaneId × Store)
  | [] => (some [], [])
  | (p, s) :: rest =>
    if !s.isIdle && ready s.toBuffer then
      match s.take maxBytes limit with
      | (none, s) => (none, (p, s) :: rest)
      | (some d, s) =>
        let (chunks, rest) := takeWhere maxBytes limit ready rest
        (chunks.map (⟨p, d⟩ :: ·), (p, s) :: rest)
    else
      let (chunks, rest) := takeWhere maxBytes limit ready rest
      (chunks, (p, s) :: rest)

/-- **A flush with a limit**, whichever it is, takes what it should. -/
theorem takeWhere_some (maxBytes limit : Nat) (ready : Buffer → Bool) (panes : PaneMap Buffer)
    {stores : List (PaneId × Store)} (h : view stores = panes.entries) :
    (takeWhere maxBytes (some limit) ready stores).1 = some (chunksWhere ready panes) ∧
      view (takeWhere maxBytes (some limit) ready stores).2 = (clearWhere ready panes).entries := by
  obtain ⟨entries, nodup⟩ := panes
  obtain rfl : view stores = entries := h
  unfold chunksWhere clearWhere PaneMap.mapVal
  dsimp only
  clear nodup
  induction stores with
  | nil => exact ⟨rfl, rfl⟩
  | cons e rest ih =>
    obtain ⟨p, s⟩ := e
    obtain ⟨hchunks, hrest⟩ := ih
    have hview : ∀ (s : Store) l, view ((p, s) :: l) = (p, s.toBuffer) :: view l := fun _ _ => rfl
    rw [takeWhere, hview, List.filterMap_cons, List.map_cons, ← hrest]
    dsimp only
    by_cases hs : (!s.isIdle && ready s.toBuffer) = true
    · rw [if_pos hs, if_pos hs, if_pos hs]
      dsimp only [Store.take]
      rw [hchunks]
      refine ⟨rfl, ?_⟩
      split
      · exact hview _ _
      · exact hview _ _
    · rw [if_neg hs, if_neg hs, if_neg hs]
      exact ⟨hchunks, hview _ _⟩

/-- **A flush without a limit** breaks off at the first buffer that meets the condition. This buffer
is empty afterwards, and nobody has its bytes. -/
theorem takeWhere_none (maxBytes : Nat) {ready : Buffer → Bool} (p : PaneId) {s : Store}
    (hs : (!s.isIdle && ready s.toBuffer) = true) {before : List (PaneId × Store)}
    (after : List (PaneId × Store))
    (hbefore : ∀ e ∈ before, (!e.2.isIdle && ready e.2.toBuffer) = false) :
    takeWhere maxBytes none ready (before ++ (p, s) :: after) =
      (none, before ++ (p, s.emptied) :: after) := by
  induction before with
  | nil =>
    rw [List.nil_append, takeWhere, if_pos hs]
    rfl
  | cons e before ih =>
    obtain ⟨he, hbefore⟩ := List.forall_mem_cons.mp hbefore
    rw [List.cons_append, takeWhere, if_neg (by rw [he]; exact Bool.false_ne_true), ih hbefore]
    rfl

/-! ### Flushes -/

/-- Which buffers a flush is for: those that are due, or all of them in the last one. -/
def wanted (b : Batcher) (last : Bool) (buffer : Buffer) : Bool :=
  last || buffer.isDue b.policy b.now

/-- **Flushes in memory do what they should**, rounds and the last one, however much room there is:
they take the chunks that are to be taken, and leave what is to stay. -/
def Flushes (limit : Option Nat) (b : Batcher) : Prop :=
  ∀ last stores, view stores = b.panes.entries →
    (takeWhere b.policy.maxBytes limit (b.wanted last) stores).1 =
        some (b.drained (if last then .last else .round)) ∧
      view (takeWhere b.policy.maxBytes limit (b.wanted last) stores).2 =
        (b.remaining (if last then .last else .round)).entries

/-- Any limit will do. -/
theorem flushes_some (limit : Nat) (b : Batcher) : Flushes (some limit) b := by
  intro last stores h
  have htaken := takeWhere_some b.policy.maxBytes limit (b.wanted last) b.panes h
  cases last <;> exact htaken

/-- One byte was written. -/
theorem panes_written (q : BatchPolicy) (r : RestartPolicy) :
    ((fresh q r).run [.op (.write "%0" ⟨#[0]⟩)]).panes.entries = [("%0", ⟨⟨#[0]⟩, 0, 0⟩)] := by
  show (signal ((fresh q r).append "%0" ⟨#[0]⟩).1 true _).panes.entries = _
  unfold signal
  split <;> rfl

/-- **Flushes in memory do what they should** on every run just if the fourfold size of a full buffer
is a word. -/
theorem flushes_iff (q : BatchPolicy) (r : RestartPolicy) :
    (∀ fate ms, Flushes (fourfold? q.maxBytes) ((fresh q r fate).run ms)) ↔
      q.maxBytes * 4 < 2 ^ 64 := by
  constructor
  · intro h
    refine Decidable.byContradiction fun hno => ?_
    have htaken := (h (fun _ => none) [.op (.write "%0" ⟨#[0]⟩)] true
      [("%0", ⟨⟨⟨#[0]⟩, 0, 0⟩, 0⟩)] (panes_written q r).symm).1
    rw [fourfold?, word?_of_le (Nat.not_lt.mp hno)] at htaken
    cases htaken
  · intro h fate ms
    rw [fourfold?, word?_of_lt h]
    exact flushes_some _ _

end PaneRelay.Batcher
