import Mathlib.Data.List.DropRight
import PaneRelay.Hub.Route
import PaneRelay.Proofs.Batcher.Chunks

/-! # A history is the tail of a stream

What was pushed for a pane since its history was last dropped is the pane's stream, however it was
split. The buffer never holds the stream, only its last bytes, and more output goes to those; the
last bytes of a stream that goes on can be told from its last bytes alone (`tail_tail_append`), so
nothing is lost by that.

* `tail`: the last bytes; `append_eq_tail`: what a push leaves of what was stored and what comes.
* `append?`: a push in its single steps, of which the one that evicts could fail;
  `overflow_cleared_le`, `append?_eq`: it never does.
* `Op`, `run`: what can happen to a buffer; `stream`: the bytes of a pane since its last drop.
* `history_run`: the history after a run.
* `Apart`: pieces of bytes that do not overlap; `handed_apart`: histories that were handed out do not.
* `history_is_tail`: all of it, after any run. -/

namespace PaneRelay

open Batcher (Chunk bytesOf bytesOf_append bytesOf_singleton)

namespace Replay

/-! ### The last bytes -/

/-- **The last `n` bytes**, or all of them if there are not so many. -/
def tail (n : Nat) (b : ByteArray) : ByteArray := b.extract (b.size - n) b.size

theorem tail_size (n : Nat) (b : ByteArray) : (tail n b).size = min n b.size := by
  unfold tail
  rw [ByteArray.size_extract]
  omega

theorem tail_isEmpty_iff {n : Nat} {b : ByteArray} :
    (tail n b).isEmpty = true ↔ n = 0 ∨ b = ByteArray.empty := by
  rw [Batcher.isEmpty_iff, ← ByteArray.size_eq_zero_iff, tail_size, ← ByteArray.size_eq_zero_iff]
  omega

/-- What comes before the last bytes. -/
theorem exists_append_tail (n : Nat) (b : ByteArray) : ∃ a, b = a ++ tail n b := by
  refine ⟨b.extract 0 (b.size - n), ?_⟩
  unfold tail
  rw [← ByteArray.extract_eq_extract_append_extract _ (by omega) (by omega),
    ByteArray.extract_zero_size]

/-- Bytes that are as many by themselves hide all before them. -/
theorem tail_append_of_le {n : Nat} {a b : ByteArray} (h : n ≤ b.size) :
    tail n (a ++ b) = tail n b := by
  have hleft : a.extract (a.size + b.size - n) (a.size + b.size) = ByteArray.empty :=
    ByteArray.extract_eq_empty_iff.mpr (by omega)
  have hstart : a.size + b.size - n - a.size = b.size - n := by omega
  unfold tail
  rw [ByteArray.size_append, ByteArray.extract_append, hleft, ByteArray.empty_append, hstart,
    Nat.add_sub_cancel_left]

/-- Fewer bytes leave room for some of those before them. -/
theorem tail_append_of_ge {n : Nat} {a b : ByteArray} (h : b.size ≤ n) :
    tail n (a ++ b) = tail (n - b.size) a ++ b := by
  have hend : a.extract a.size (a.size + b.size) = ByteArray.empty :=
    ByteArray.extract_eq_empty_iff.mpr (by omega)
  have hstart : a.size + b.size - n = a.size - (n - b.size) := by omega
  have hleft : a.extract (a.size + b.size - n) (a.size + b.size) = tail (n - b.size) a := by
    rw [hstart, ByteArray.extract_eq_extract_append_extract a.size (by omega) (by omega), hend,
      ByteArray.append_empty]
    rfl
  have hright : b.extract (a.size + b.size - n - a.size) (a.size + b.size - a.size) = b := by
    rw [show a.size + b.size - n - a.size = 0 by omega, Nat.add_sub_cancel_left]
    exact ByteArray.extract_zero_size
  show (a ++ b).extract ((a ++ b).size - n) (a ++ b).size = _
  rw [ByteArray.size_append, ByteArray.extract_append, hleft, hright]

theorem tail_tail {m n : Nat} (h : m ≤ n) (b : ByteArray) : tail m (tail n b) = tail m b := by
  obtain ⟨a, ha⟩ := exists_append_tail n b
  by_cases hm : m ≤ (tail n b).size
  · conv_rhs => rw [ha]
    exact (tail_append_of_le hm).symm
  · -- then all of `b` is shorter than `n`
    have hall : tail n b = b := by
      unfold tail
      rw [tail_size] at hm
      rw [show b.size - n = 0 by omega]
      exact ByteArray.extract_zero_size
    rw [hall]

/-- **The last bytes of a stream that goes on** can be told from its last bytes so far. -/
theorem tail_tail_append (n : Nat) (a b : ByteArray) : tail n (tail n a ++ b) = tail n (a ++ b) := by
  by_cases h : n ≤ b.size
  · rw [tail_append_of_le h, tail_append_of_le h]
  · have h : b.size ≤ n := by omega
    rw [tail_append_of_ge h, tail_append_of_ge h, tail_tail (Nat.sub_le n b.size)]

/-! ### A push -/

/-- **What a push stores** is the tail of what was stored and what comes. -/
theorem append_eq_tail (max : Nat) (old data : ByteArray) :
    append max old data = tail max (old ++ data) := by
  unfold append
  split
  · next h => rw [tail_append_of_le h, tail]
  · next h =>
    rw [tail_append_of_ge (by omega), tail,
      show old.size - (max - data.size) = old.size + data.size - max by omega]

theorem append_isEmpty {max : Nat} {old data : ByteArray} (hm : max ≠ 0)
    (hd : data.isEmpty = false) : (append max old data).isEmpty = false := by
  have hdata : data.size ≠ 0 := by simpa [ByteArray.isEmpty] using hd
  have hne : (append max old data).size ≠ 0 := by
    rw [append_eq_tail, tail_size, ByteArray.size_append]
    omega
  simpa [ByteArray.isEmpty] using hne

/-- What is stored and what comes, once output that is too long by itself has cleared the one and
lost its own oldest bytes. -/
def cleared (max : Nat) (old data : ByteArray) : ByteArray × ByteArray :=
  if max < data.size then (ByteArray.empty, tail max data) else (old, data)

/-- How many of the stored bytes have to make room. -/
def overflow (max : Nat) (old data : ByteArray) : Nat := old.size + data.size - max

/-- Takes the oldest bytes away. There have to be so many. -/
def drain? (b : ByteArray) (n : Nat) : Option ByteArray :=
  if n ≤ b.size then some (b.extract n b.size) else none

/-- **A push in single steps:** clear, evict, extend. It fails if it is to evict more than is
stored. -/
def append? (max : Nat) (old data : ByteArray) : Option ByteArray :=
  let (old, data) := cleared max old data
  (drain? old (overflow max old data)).map (· ++ data)

theorem cleared_size_le (max : Nat) (old data : ByteArray) : (cleared max old data).2.size ≤ max := by
  unfold cleared
  split
  · rw [tail_size]
    exact Nat.min_le_left max data.size
  · next h => exact Nat.le_of_not_lt h

/-- **No push evicts more than is stored.** -/
theorem overflow_cleared_le (max : Nat) (old data : ByteArray) :
    overflow max (cleared max old data).1 (cleared max old data).2 ≤ (cleared max old data).1.size := by
  have h := cleared_size_le max old data
  unfold overflow
  omega

/-- Nothing is lost by the clearing that could have stayed. -/
theorem tail_cleared (max : Nat) (old data : ByteArray) :
    tail max ((cleared max old data).1 ++ (cleared max old data).2) = tail max (old ++ data) := by
  unfold cleared
  split
  · next h =>
    rw [ByteArray.empty_append, tail_tail (Nat.le_refl max), tail_append_of_le (by omega)]
  · rfl

/-- **The steps of a push** come to what it stores. -/
theorem append?_eq (max : Nat) (old data : ByteArray) :
    append? max old data = some (append max old data) := by
  have hle := overflow_cleared_le max old data
  have hfit := cleared_size_le max old data
  rw [append_eq_tail, ← tail_cleared]
  unfold append?
  generalize cleared max old data = s at hle hfit ⊢
  obtain ⟨old, data⟩ := s
  dsimp only at hle hfit ⊢
  have hsame : old.size - (max - data.size) = overflow max old data := by
    unfold overflow
    omega
  rw [tail_append_of_ge hfit, tail, hsame]
  simp only [drain?, if_pos hle, Option.map_some]

theorem history_push (r : Replay) (p : PaneId) (data : ByteArray) (q : PaneId) :
    (r.push p data).history q = if data.isEmpty || r.max == 0 then r.history q
      else if q = p then some (append r.max ((r.history p).getD ByteArray.empty) data)
      else r.history q := by
  unfold push
  cases data.isEmpty || r.max == 0 with
  | true => rfl
  | false => exact PaneMap.find?_insert _ _ _ _

theorem history_forget (r : Replay) (p q : PaneId) :
    (r.forget p).history q = if q = p then none else r.history q := by
  by_cases h : q = p
  · rw [if_pos h, h]
    exact PaneMap.find?_erase_self _ _
  · rw [if_neg h]
    exact PaneMap.find?_erase_ne _ h

theorem history_retain (r : Replay) (live : List PaneId) (q : PaneId) :
    (r.retain live).history q = if live.contains q then r.history q else none :=
  PaneMap.find?_keep _ _ _

/-! ### Runs -/

/-- **What can happen to a buffer.** -/
inductive Op where
  /-- Output of a pane. -/
  | push (p : PaneId) (data : ByteArray)
  /-- A pane's history is dropped. -/
  | forget (p : PaneId)
  /-- A pane's history is handed out, and dropped. -/
  | take (p : PaneId)
  /-- The histories of all but some panes are dropped. -/
  | retain (live : List PaneId)

/-- Whether a pane's history is dropped. -/
def Op.drops (p : PaneId) : Op → Bool
  | .push _ _ => false
  | .forget q | .take q => q == p
  | .retain live => !live.contains p

/-- Whether a pane has anything to do with it. -/
def Op.concerns (p : PaneId) : Op → Bool
  | .push q _ | .forget q | .take q => q == p
  | .retain _ => true

/-- The output that comes. -/
def Op.output : Op → List Chunk
  | .push p data => [⟨p, data⟩]
  | _ => []

/-- The buffer afterwards. -/
def perform (r : Replay) : Op → Replay
  | .push p data => r.push p data
  | .forget p => r.forget p
  | .take p => (r.take p).2
  | .retain live => r.retain live

/-- **The buffer after a run.** -/
def run (r : Replay) (ops : List Op) : Replay := ops.foldl perform r

theorem run_concat (r : Replay) (ops : List Op) (o : Op) :
    r.run (ops ++ [o]) = (r.run ops).perform o := List.foldl_append

/-- What has happened since a pane's history was last dropped. -/
def since (p : PaneId) (ops : List Op) : List Op := ops.rtakeWhile fun o => !o.drops p

/-- **A pane's stream:** all that was pushed for it since its history was last dropped. -/
def stream (p : PaneId) (ops : List Op) : ByteArray := bytesOf p ((since p ops).flatMap Op.output)

@[simp] theorem stream_nil (p : PaneId) : stream p [] = ByteArray.empty := rfl

theorem stream_concat (p : PaneId) (ops : List Op) (o : Op) :
    stream p (ops ++ [o]) =
      if o.drops p then ByteArray.empty else stream p ops ++ bytesOf p o.output := by
  unfold stream since
  rw [List.rtakeWhile_concat]
  cases o.drops p with
  | true => rfl
  | false => simp [List.flatMap_append]

/-- **A drop starts a stream anew:** what came before it is not part of it. -/
theorem stream_of_drops {p : PaneId} {o : Op} (h : o.drops p = true) (before after : List Op) :
    stream p (before ++ o :: after) = stream p after := by
  induction after using List.reverseRecOn with
  | nil => rw [stream_concat, if_pos h, stream_nil]
  | append_singleton after b ih =>
    rw [← List.cons_append, ← List.append_assoc, stream_concat, stream_concat, ih]

theorem perform_max (r : Replay) (o : Op) : (r.perform o).max = r.max := by
  cases o with
  | push p data =>
    show (r.push p data).max = r.max
    unfold push
    split <;> rfl
  | _ => rfl

theorem run_max (r : Replay) (ops : List Op) : (r.run ops).max = r.max := by
  induction ops using List.reverseRecOn with
  | nil => rfl
  | append_singleton ops o ih => rw [run_concat, perform_max, ih]

/-- Bytes, if there are any. -/
def solid (b : ByteArray) : Option ByteArray := if b.isEmpty then none else some b

theorem solid_getD (b : ByteArray) : (solid b).getD ByteArray.empty = b := by
  unfold solid
  split
  · next h => exact (Batcher.isEmpty_iff.mp h).symm
  · rfl

theorem solid_size (b : ByteArray) : ((solid b).map ByteArray.size).getD 0 = b.size := by
  unfold solid
  split
  · next h =>
    rw [Batcher.isEmpty_iff.mp h]
    rfl
  · rfl

theorem solid_isSome {b : ByteArray} : (solid b).isSome = true ↔ ¬ b.isEmpty = true := by
  unfold solid
  split
  · next h => simp [h]
  · next h => simp [h]

/-- What is no output drops the history, or leaves it alone. -/
theorem history_of_no_output (r : Replay) (p : PaneId) {o : Op} (ho : o.output = []) :
    (r.perform o).history p = if o.drops p then none else r.history p := by
  have hforget : ∀ q, (r.forget q).history p = if q == p then none else r.history p := fun q => by
    rw [history_forget]
    by_cases h : p = q
    · rw [if_pos h, if_pos (by simp [h])]
    · rw [if_neg h, if_neg (by simp [Ne.symm h])]
  cases o with
  | push q data => cases ho
  | forget q => exact hforget q
  | take q => exact hforget q
  | retain live =>
    show (r.retain live).history p = if !live.contains p then none else r.history p
    rw [history_retain]
    cases live.contains p <;> rfl

section
variable {r : Replay} {p : PaneId} {l : ByteArray} (h : r.history p = solid (tail r.max l))
include h

/-- **Output:** the history stays the tail of the stream. -/
theorem history_push_tail (q : PaneId) (data : ByteArray) :
    (r.push q data).history p = solid (tail r.max (l ++ bytesOf p [⟨q, data⟩])) := by
  rw [history_push, bytesOf_singleton]
  by_cases hq : q = p
  · subst hq
    rw [if_pos rfl, if_pos rfl, h, solid_getD, append_eq_tail, tail_tail_append]
    by_cases hnone : (data.isEmpty || r.max == 0) = true
    · -- nothing came, or nothing is ever kept
      rw [if_pos hnone]
      rcases Bool.or_eq_true_iff.mp hnone with hd | hm
      · rw [Batcher.isEmpty_iff.mp hd, ByteArray.append_empty]
      · have hzero : ∀ b, solid (tail r.max b) = none := fun b =>
          if_pos (tail_isEmpty_iff.mpr (.inl (by simpa using hm)))
        rw [hzero, hzero]
    · rw [if_neg hnone]
      obtain ⟨hd, hm⟩ : data.isEmpty = false ∧ r.max ≠ 0 := by simpa using hnone
      have hne : (append r.max l data).isEmpty = false := append_isEmpty hm hd
      rw [append_eq_tail] at hne
      exact (if_neg (by simp [hne])).symm
  · rw [if_neg (Ne.symm hq), if_neg hq, ByteArray.append_empty, h, ite_self]

/-- **One step:** the history stays the tail of the stream. -/
theorem history_perform (o : Op) : (r.perform o).history p = solid (tail r.max
    (if o.drops p then ByteArray.empty else l ++ bytesOf p o.output)) := by
  by_cases ho : o.output = []
  · rw [history_of_no_output r p ho, ho]
    cases o.drops p with
    | true => exact (if_pos (tail_isEmpty_iff.mpr (.inr rfl))).symm
    | false => simpa using h
  · cases o with
    | push q data => exact history_push_tail h q data
    | _ => exact absurd rfl ho

end

/-- **A history is the tail of the stream**, after any run of an empty buffer. -/
theorem history_run (max : Nat) (ops : List Op) (p : PaneId) :
    (run { max } ops).history p = solid (tail max (stream p ops)) := by
  induction ops using List.reverseRecOn with
  | nil => exact (if_pos (tail_isEmpty_iff.mpr (.inr rfl))).symm
  | append_singleton ops o ih =>
    have hmax : (run { max } ops).max = max := run_max _ ops
    rw [run_concat, history_perform (l := stream p ops) (by rw [ih, hmax]), hmax, stream_concat]

/-! ### What is handed out -/

/-- What is handed out of a pane's history. -/
def Op.gives (p : PaneId) (r : Replay) : Op → Option ByteArray
  | .take q => if q = p then (r.take q).1 else none
  | _ => none

/-- Only a step that drops the history hands it out, and then all of it. -/
theorem Op.gives_cases (o : Op) (p : PaneId) (r : Replay) :
    o.gives p r = none ∨ o.drops p = true ∧ o.gives p r = r.history p := by
  cases o with
  | take q =>
    by_cases h : q = p
    · subst h
      exact .inr ⟨beq_self_eq_true q, if_pos rfl⟩
    · exact .inl (if_neg h)
  | _ => exact .inl rfl

/-- What is handed out of a pane's history in a run, oldest first. -/
def handed (p : PaneId) (r : Replay) : List Op → List ByteArray
  | [] => []
  | o :: ops => (o.gives p r).toList ++ handed p (r.perform o) ops

theorem handed_concat (p : PaneId) (r : Replay) (ops : List Op) (o : Op) :
    handed p r (ops ++ [o]) = handed p r ops ++ (o.gives p (r.run ops)).toList := by
  induction ops generalizing r with
  | nil => exact List.append_nil _
  | cons a ops ih =>
    rw [List.cons_append, handed, ih, handed, List.append_assoc]
    rfl

/-- **Pieces that do not overlap:** they lie in a stretch of bytes one behind the other. -/
def Apart : List ByteArray → ByteArray → Prop
  | [], _ => True
  | d :: ds, b => ∃ before after, b = before ++ (d ++ after) ∧ Apart ds after

theorem Apart.append {ds : List ByteArray} {b : ByteArray} (h : Apart ds b) (c : ByteArray) :
    Apart ds (b ++ c) := by
  induction ds generalizing b with
  | nil => trivial
  | cons d ds ih =>
    obtain ⟨before, after, rfl, hrest⟩ := h
    exact ⟨before, after ++ c, by simp only [ByteArray.append_assoc], ih hrest⟩

theorem Apart.concat {ds : List ByteArray} {b : ByteArray} (h : Apart ds b) (c d : ByteArray) :
    Apart (ds ++ [d]) (b ++ (c ++ d)) := by
  induction ds generalizing b with
  | nil =>
    refine ⟨b ++ c, ByteArray.empty, ?_, trivial⟩
    simp only [ByteArray.append_assoc, ByteArray.append_empty]
  | cons e ds ih =>
    obtain ⟨before, after, rfl, hrest⟩ := h
    exact ⟨before, after ++ (c ++ d), by simp only [ByteArray.append_assoc], ih hrest⟩

/-- The tail of what comes behind the pieces is one more. -/
theorem Apart.concat_tail {ds : List ByteArray} {b : ByteArray} (h : Apart ds b) (max : Nat)
    (l : ByteArray) : Apart (ds ++ (solid (tail max l)).toList) (b ++ l) := by
  unfold solid
  split
  · rw [Option.toList_none, List.append_nil]
    exact h.append l
  · obtain ⟨c, hc⟩ := exists_append_tail max l
    have hl := h.concat c (tail max l)
    rwa [← hc] at hl

/-- **What was handed out lies before the stream**, and does not overlap. -/
theorem handed_apart (max : Nat) (ops : List Op) (p : PaneId) :
    ∃ b, bytesOf p (ops.flatMap Op.output) = b ++ stream p ops ∧ Apart (handed p { max } ops) b := by
  induction ops using List.reverseRecOn with
  | nil => exact ⟨ByteArray.empty, rfl, trivial⟩
  | append_singleton ops o ih =>
    obtain ⟨b, htotal, hb⟩ := ih
    rw [List.flatMap_append, bytesOf_append, List.flatMap_singleton, htotal, stream_concat,
      handed_concat]
    cases hd : o.drops p with
    | false =>
      refine ⟨b, ByteArray.append_assoc, ?_⟩
      rcases o.gives_cases p (run { max } ops) with hg | ⟨hd', -⟩
      · rwa [hg, Option.toList_none, List.append_nil]
      · rw [hd] at hd'
        cases hd'
    | true =>
      -- the stream ends here, and its tail is what can be handed out
      have hnone : bytesOf p o.output = ByteArray.empty := by
        cases o with
        | push q data => cases hd
        | _ => rfl
      refine ⟨b ++ stream p ops, by rw [hnone]; rfl, ?_⟩
      rcases o.gives_cases p (run { max } ops) with hg | ⟨-, hg⟩
      · rw [hg, Option.toList_none, List.append_nil]
        exact hb.append _
      · rw [hg, history_run]
        exact hb.concat_tail max _

/-! ### What a stream depends on -/

/-- **How output is split does not matter.** -/
theorem stream_split (p q : PaneId) (a b : ByteArray) (before after : List Op) :
    stream p (before ++ .push q (a ++ b) :: after) =
      stream p (before ++ .push q a :: .push q b :: after) := by
  induction after using List.reverseRecOn with
  | nil =>
    have hsplit : before ++ [.push q a, .push q b] = before ++ [.push q a] ++ [.push q b] := by simp
    rw [hsplit, stream_concat, stream_concat, stream_concat]
    simp only [Op.drops, Bool.false_eq_true, if_false, Op.output, bytesOf_singleton,
      ByteArray.append_assoc]
    split <;> simp
  | append_singleton after o ih =>
    have hone : before ++ .push q (a ++ b) :: (after ++ [o]) =
        before ++ .push q (a ++ b) :: after ++ [o] := by simp
    have htwo : before ++ .push q a :: .push q b :: (after ++ [o]) =
        before ++ .push q a :: .push q b :: after ++ [o] := by simp
    rw [hone, htwo, stream_concat, stream_concat, ih]

/-- **Other panes do not matter.** -/
theorem stream_filter (p : PaneId) (ops : List Op) :
    stream p (ops.filter (Op.concerns p)) = stream p ops := by
  induction ops using List.reverseRecOn with
  | nil => rfl
  | append_singleton ops o ih =>
    rw [List.filter_append]
    cases hc : o.concerns p with
    | true => rw [List.filter_singleton, hc, cond_true, stream_concat, stream_concat, ih]
    | false =>
      -- it is about another pane
      have ho : o.drops p = false ∧ bytesOf p o.output = ByteArray.empty := by
        cases o with
        | push q data =>
          refine ⟨rfl, (bytesOf_singleton p q data).trans (if_neg fun h => ?_)⟩
          simp [Op.concerns, h] at hc
        | forget q => exact ⟨hc, rfl⟩
        | take q => exact ⟨hc, rfl⟩
        | retain live => cases hc
      rw [List.filter_singleton, hc, cond_false, List.append_nil, ih, stream_concat, ho.1, ho.2]
      simp

end Replay

/-! ### The fallback of a hub -/

/-- What happens to a fallback. It forgets a history only by handing it out. -/
def Hub.Fallback.ask (f : Hub.Fallback) : Replay.Op → Hub.Fallback
  | .push p data => f.deliver p data
  | .forget p | .take p =>
    match f with
    | .recorded chunks => .recorded chunks
    | .kept r => .kept (r.take p).2
  | .retain live => f.retain live

/-- **A fallback that keeps histories** keeps those of its buffer. -/
theorem Hub.Fallback.foldl_ask (r : Replay) (ops : List Replay.Op) :
    ops.foldl ask (.kept r) = .kept (r.run ops) := by
  induction ops generalizing r with
  | nil => rfl
  | cons o ops ih =>
    have hone : ask (.kept r) o = .kept (r.perform o) := by cases o <;> rfl
    rw [List.foldl_cons, hone, ih]
    rfl

namespace Replay

/-- **A history is the tail of a stream.** After any run of an empty buffer, and of a fallback that
keeps histories, the history of a pane is the last `max` bytes of what was pushed for it since it was
last dropped, or there is none if that comes to no bytes; so a pane has an entry exactly if bytes are
kept at all and some were pushed. No push evicts more than is stored. Hence the history depends
neither on how output is split, nor on other panes, nor on anything before the last drop, and what
was handed out of it, with what is left, does not overlap in all that was ever pushed. -/
theorem history_is_tail (max : Nat) (ops : List Op) (p : PaneId) :
    let r := run { max } ops
    let l := stream p ops
    r.history p = (if (tail max l).isEmpty then none else some (tail max l)) ∧
    r.len p = min max l.size ∧
    (r.panes.contains p = true ↔ 0 < max ∧ l ≠ ByteArray.empty) ∧
    (∀ q data, let old := (r.history q).getD ByteArray.empty
      overflow max (cleared max old data).1 (cleared max old data).2 ≤
          (cleared max old data).1.size ∧
        append? max old data = some (append max old data)) ∧
    ops.foldl Hub.Fallback.ask (.kept { max }) = .kept r ∧
    (∀ before after q a b, ops = before ++ .push q (a ++ b) :: after →
      (run { max } (before ++ .push q a :: .push q b :: after)).history p = r.history p) ∧
    (run { max } (ops.filter (Op.concerns p))).history p = r.history p ∧
    (∀ before after o, ops = before ++ o :: after → o.drops p = true →
      (run { max } after).history p = r.history p) ∧
    Apart (handed p { max } ops ++ (r.history p).toList) (bytesOf p (ops.flatMap Op.output)) := by
  intro r l
  have hrun : ∀ ops', (run { max } ops').history p = solid (tail max (stream p ops')) := fun ops' =>
    history_run max ops' p
  have hr : r.history p = solid (tail max l) := hrun ops
  refine ⟨hr, ?_, ?_, fun q data => ⟨overflow_cleared_le _ _ _, append?_eq _ _ _⟩,
    Hub.Fallback.foldl_ask _ ops, ?_, ?_, ?_, ?_⟩
  · unfold len
    rw [hr, solid_size, tail_size]
  · show (r.history p).isSome = true ↔ _
    rw [hr, solid_isSome, tail_isEmpty_iff, not_or, Nat.pos_iff_ne_zero]
  · rintro before after q a b rfl
    rw [hr, hrun, ← stream_split]
  · rw [hr, hrun, stream_filter]
  · rintro before after o rfl ho
    rw [hr, hrun, ← stream_of_drops ho before]
  · obtain ⟨b, htotal, hb⟩ := handed_apart max ops p
    rw [hr, htotal]
    exact hb.concat_tail max l

end Replay

end PaneRelay
