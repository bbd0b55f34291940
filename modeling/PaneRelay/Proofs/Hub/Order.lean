import PaneRelay.Proofs.Batcher.Chunks
import PaneRelay.Proofs.Hub.Payback

/-! # The order of a pane's output in a queue

Two writers fill a consumer's queue: flushes, which go to the hub from the moment a pane is asked
for, and the task, which sends the pane's history some time later. Until then the history is owed,
and a flush that is queued meanwhile overtakes it. As long as none does, a queue holds the bytes of
a pane in the order in which they were flushed.

* `Relay.owed`: the bytes of a pane that the task has yet to send.
* `Relay.placed`, `Relay.queued`: what a step and a run place in a queue; `Relay.framesOf_queued`.
* `Relay.owed_step`: what a step does to what is owed, from which `Relay.owed_run` follows.
* `Relay.queued_in_order`: the order, if nothing overtakes.
* `Relay.overtaken`: the order, if something does. -/

namespace PaneRelay.Hub

open Batcher (Chunk bytesOf bytesOf_append bytesOf_nil bytesOf_singleton bytesOf_eq_empty)

/-! ### Parts of bytes -/

/-- **Bytes in the order in which others have them**, some of which may be missing. -/
def PartOf (d e : ByteArray) : Prop := d.data.toList.Sublist e.data.toList

instance (d e : ByteArray) : Decidable (PartOf d e) :=
  inferInstanceAs (Decidable (List.Sublist _ _))

namespace PartOf

theorem refl (d : ByteArray) : PartOf d d := List.Sublist.refl _

theorem trans {d e f : ByteArray} (h : PartOf d e) (h' : PartOf e f) : PartOf d f :=
  List.Sublist.trans h h'

theorem empty (d : ByteArray) : PartOf ByteArray.empty d := List.nil_sublist _

theorem append {d e d' e' : ByteArray} (h : PartOf d e) (h' : PartOf d' e') :
    PartOf (d ++ d') (e ++ e') := by
  unfold PartOf
  rw [ByteArray.data_append, ByteArray.data_append, Array.toList_append, Array.toList_append]
  exact List.Sublist.append h h'

theorem append_right (d e : ByteArray) : PartOf d (d ++ e) := by
  have h := (refl d).append (empty e)
  rwa [ByteArray.append_empty] at h

theorem append_left (d e : ByteArray) : PartOf e (d ++ e) := by
  have h := (empty d).append (refl e)
  rwa [ByteArray.empty_append] at h

theorem extract (d : ByteArray) (i j : Nat) : PartOf (d.extract i j) d := by
  unfold PartOf
  rw [ByteArray.data_extract, Array.toList_extract, List.extract_eq_take_drop]
  exact (List.take_sublist _ _).trans (List.drop_sublist _ _)

/-- A history that is too long loses its oldest bytes. -/
theorem replay (max : Nat) (old data : ByteArray) :
    PartOf (Replay.append max old data) (old ++ data) := by
  rw [Replay.append_eq_tail]
  exact extract _ _ _

theorem bytesOf {cs ds : List Chunk} (h : cs.Sublist ds) (p : PaneId) :
    PartOf (bytesOf p cs) (bytesOf p ds) := by
  induction h with
  | slnil => exact refl _
  | cons c _ ih =>
    rw [Batcher.bytesOf_cons p c]
    exact ih.trans (append_left _ _)
  | cons_cons c _ ih =>
    rw [Batcher.bytesOf_cons p c, Batcher.bytesOf_cons p c]
    exact (refl _).append ih

end PartOf

namespace Relay

/-! ### What is flushed, and what is queued -/

/-- The output that a step brings. -/
def Step.output : Step → List Chunk
  | .deliver p d => [⟨p, d⟩]
  | .hub (.broadcast p d) => [⟨p, d⟩]
  | _ => []

/-- **The output of a run**, in the order in which it was flushed. -/
def flushed (steps : List Step) : List Chunk := steps.flatMap Step.output

/-- What a step gives to the hub. -/
def given (s : Relay) : Step → List Chunk
  | .deliver p d => if s.hub.isActive && s.hub.isWanted p then [⟨p, d⟩] else []
  | .hub (.broadcast p d) => [⟨p, d⟩]
  | .send => s.inHand.toList.map fun (p, d) => ⟨p, d⟩
  | _ => []

/-- What of it is placed in the queue of a connection. -/
def placed (id : Nat) (s : Relay) (a : Step) : List Chunk :=
  (s.given a).filter fun c => s.hub.Concerns id c.pane c.data ∧ s.hub.hasRoom id = true

/-- **What a run places in the queue of a connection**, oldest first. -/
def queued (id : Nat) (s : Relay) : List Step → List Chunk
  | [] => []
  | a :: steps => s.placed id a ++ (s.step a).queued id steps

/-- The frame of a chunk. -/
def frameOf (c : Chunk) : ByteArray := Frame.encode c.pane c.data

/-- A flush goes to the hub or to the fallback. -/
theorem deliver_cases (s : Relay) (p : PaneId) (d : ByteArray) :
    ((s.hub.isActive && s.hub.isWanted p) = true ∧
      (s.step (.deliver p d)).hub = s.hub.broadcast p d ∧
      (s.step (.deliver p d)).outlet.fallback = s.outlet.fallback) ∨
    ((s.hub.isActive && s.hub.isWanted p) = false ∧ (s.step (.deliver p d)).hub = s.hub ∧
      (d.isEmpty = true ∧ (s.step (.deliver p d)).outlet.fallback = s.outlet.fallback ∨
        (s.step (.deliver p d)).outlet.fallback = s.outlet.fallback.deliver p d)) := by
  have hstep : s.step (.deliver p d) = { s with outlet := s.outlet.deliver p d } := rfl
  rw [hstep]
  unfold hub Outlet.deliver
  cases hw : s.outlet.hub.isActive && s.outlet.hub.isWanted p with
  | true =>
    left
    refine ⟨rfl, ?_⟩
    cases hd : d.isEmpty with
    | true =>
      have hb : s.outlet.hub.broadcast p d = s.outlet.hub := by
        unfold Hub.broadcast
        rw [if_pos hd]
      exact ⟨hb.symm, rfl⟩
    | false => exact ⟨rfl, rfl⟩
  | false =>
    right
    refine ⟨rfl, ?_⟩
    cases hd : d.isEmpty with
    | true => exact ⟨rfl, .inl ⟨rfl, rfl⟩⟩
    | false => exact ⟨rfl, .inr rfl⟩

/-- Output that the hub is given is placed where it belongs. -/
theorem framesOf_given {acts : List Act} {h : Hub} (hb : Booked acts h) (p : PaneId)
    (d : ByteArray) (id : Nat) :
    (h.broadcast p d).framesOf id = h.framesOf id ++
      ([(⟨p, d⟩ : Chunk)].filter fun c =>
        h.Concerns id c.pane c.data ∧ h.hasRoom id = true).map frameOf := by
  rw [hb.framesOf_broadcast]
  by_cases hc : h.Concerns id p d ∧ h.hasRoom id = true
  · rw [if_pos hc, List.filter_cons_of_pos (by simpa using hc)]
    rfl
  · rw [if_neg hc, List.filter_cons_of_neg (by simpa using hc)]
    rfl

/-- **A step** places what it places, and no other frame. -/
theorem framesOf_step {policy : HubPolicy} {acts : List Act} {s : Relay}
    (hs : s.hub = (Hub.fresh policy).run acts) (a : Step) (id : Nat) :
    (s.step a).hub.framesOf id = s.hub.framesOf id ++ (s.placed id a).map frameOf := by
  have hb : Booked acts s.hub := hs ▸ booked_run policy acts
  have hquiet : (s.step a).hub = s.hub → s.given a = [] →
      (s.step a).hub.framesOf id = s.hub.framesOf id ++ (s.placed id a).map frameOf := by
    intro he hg
    rw [he, placed, hg, List.filter_nil, List.map_nil, List.append_nil]
  have hgiven : ∀ p d, (s.step a).hub = s.hub.broadcast p d → s.given a = [⟨p, d⟩] →
      (s.step a).hub.framesOf id = s.hub.framesOf id ++ (s.placed id a).map frameOf := by
    intro p d he hg
    rw [he, placed, hg]
    exact framesOf_given hb p d id
  cases a with
  | recv => exact hquiet (congrArg Outlet.hub (recv_eq s).1) rfl
  | take => exact hquiet (take_cases s).1 rfl
  | send =>
    cases hi : s.inHand with
    | none =>
      refine hquiet ?_ (by simp [given, hi])
      show s.send.hub = s.hub
      unfold send
      rw [hi]
    | some e =>
      obtain ⟨p, d⟩ := e
      exact hgiven p d (congrArg hub (send_eq hi)) (by simp [given, hi])
  | deliver p d =>
    rcases deliver_cases s p d with ⟨hw, hh, -⟩ | ⟨hw, hh, -⟩
    · exact hgiven p d hh (by simp only [given, hw, if_true])
    · exact hquiet hh (by simp only [given, hw, Bool.false_eq_true, if_false])
  | hub b =>
    have hact := framesOf_act policy acts b id
    rw [← hs] at hact
    cases b with
    | broadcast p d => exact hgiven p d rfl rfl
    | _ => exact hact

/-- **The frames ever placed in a queue** are those of what was queued. -/
theorem framesOf_queued (policy : HubPolicy) (max : Nat) (steps : List Step) (id : Nat) :
    ((fresh policy max).run steps).hub.framesOf id =
      ((fresh policy max).queued id steps).map frameOf := by
  have hmore : ∀ (s : Relay) (acts : List Act), s.hub = (Hub.fresh policy).run acts →
      (s.run steps).hub.framesOf id = s.hub.framesOf id ++ (s.queued id steps).map frameOf := by
    intro s acts hs
    induction steps generalizing s acts with
    | nil => simp [queued]
    | cons a steps ih =>
      obtain ⟨acts', hs'⟩ : ∃ acts', (s.step a).hub = (Hub.fresh policy).run acts' := by
        rcases hub_step s a with he | ⟨b, he⟩
        · exact ⟨acts, he.trans hs⟩
        · refine ⟨acts ++ [b], ?_⟩
          rw [he, hs, Hub.run_append]
          rfl
      rw [run_cons, ih (s.step a) acts' hs', framesOf_step hs, queued, List.map_append,
        List.append_assoc]
  exact hmore (fresh policy max) [] rfl

/-! ### What is owed -/

/-- **The bytes of a pane that the task has yet to send:** those in its hand, and then those in the
fallback. -/
def owed (p : PaneId) (s : Relay) : ByteArray :=
  bytesOf p (s.given .send) ++ (s.history p).getD ByteArray.empty

theorem owed_congr {s t : Relay} {p : PaneId} (hi : t.inHand = s.inHand)
    (hh : t.history p = s.history p) : t.owed p = s.owed p := by
  unfold owed given
  rw [hi, hh]

/-- A flush into the fallback joins the end of its pane's history. -/
theorem history_fallback (s : Relay) (p q : PaneId) (d : ByteArray) :
    PartOf ((({ s.outlet with fallback := s.outlet.fallback.deliver p d } :
        Outlet).history q).getD ByteArray.empty)
      ((s.history q).getD ByteArray.empty ++ bytesOf q [⟨p, d⟩]) := by
  unfold history Outlet.history
  cases s.outlet.fallback with
  | recorded chunks => exact PartOf.append_right _ _
  | kept r =>
    show PartOf (((r.push p d).history q).getD ByteArray.empty)
      ((r.history q).getD ByteArray.empty ++ _)
    rw [Replay.history_push]
    split
    · exact PartOf.append_right _ _
    · by_cases hq : q = p
      · rw [if_pos hq, hq, bytesOf_singleton, if_pos rfl]
        exact PartOf.replay _ _ _
      · rw [if_neg hq]
        exact PartOf.append_right _ _

/-- A take moves bytes from the fallback into the task's hand. -/
theorem owed_take (s : Relay) (p : PaneId) : s.take.owed p = s.owed p := by
  obtain ⟨-, ⟨hf, hi⟩ | ⟨q, d, hd, hn, hi, hq⟩⟩ := take_cases s
  · refine owed_congr hi ?_
    unfold history Outlet.history
    rw [hf]
  · have hnone : s.inHand = none := by
      cases hh : s.inHand with
      | none => rfl
      | some e =>
        -- a task with full hands takes nothing
        have he : s.take = s := by unfold take; rw [hh]
        rw [he, hd] at hn
        cases hn
    unfold owed given
    rw [hi, hnone]
    by_cases hp : p = q
    · subst hp
      rw [hn, hd]
      simp [bytesOf_singleton]
    · rw [hq p hp]
      simp [bytesOf_singleton, Ne.symm hp]

/-- **Whether a step overtakes:** other output of the pane is queued while some is owed. -/
def overtakes (p : PaneId) (id : Nat) (s : Relay) : Step → Bool
  | .send => false
  | a => (s.placed id a).any (fun c => c.pane == p) && !(s.owed p).isEmpty

/-- Whether no step of a run overtakes. -/
def orderly (p : PaneId) (id : Nat) (s : Relay) : List Step → Bool
  | [] => true
  | a :: steps => !s.overtakes p id a && (s.step a).orderly p id steps

/-- Output for the hub that overtakes nothing. -/
theorem bytesOf_placed {s : Relay} {a : Step} {p : PaneId} {id : Nat}
    (hg : (s.given a).Sublist a.output) (ho : bytesOf p (s.placed id a) ≠ ByteArray.empty →
      s.owed p = ByteArray.empty) :
    PartOf (bytesOf p (s.placed id a) ++ s.owed p) (s.owed p ++ bytesOf p a.output) := by
  have hpart : PartOf (bytesOf p (s.placed id a)) (bytesOf p a.output) :=
    PartOf.bytesOf ((List.filter_sublist (l := s.given a)).trans hg) p
  by_cases he : bytesOf p (s.placed id a) = ByteArray.empty
  · rw [he, ByteArray.empty_append]
    exact PartOf.append_right _ _
  · rw [ho he, ByteArray.append_empty, ByteArray.empty_append]
    exact hpart

/-- **A step that does not overtake:** what it places and what is owed after it were owed before it,
or are what it brings. -/
theorem owed_step {s : Relay} {a : Step} {p : PaneId} {id : Nat}
    (h : s.overtakes p id a = false) :
    PartOf (bytesOf p (s.placed id a) ++ (s.step a).owed p) (s.owed p ++ bytesOf p a.output) := by
  have hfirst : a ≠ .send → bytesOf p (s.placed id a) ≠ ByteArray.empty →
      s.owed p = ByteArray.empty := by
    intro hsend hne
    have hany : (s.placed id a).any (fun c => c.pane == p) = true := by
      cases hn : (s.placed id a).any (fun c => c.pane == p) with
      | true => rfl
      | false =>
        refine absurd (bytesOf_eq_empty fun c hc => ?_) hne
        simpa using List.any_eq_false.mp hn c hc
    cases a with
    | send => exact absurd rfl hsend
    | _ =>
      simp only [overtakes, hany, Bool.true_and, Bool.not_eq_false'] at h
      exact Batcher.isEmpty_iff.mp h
  have hstay : a ≠ .send → (s.given a).Sublist a.output → (s.step a).owed p = s.owed p →
      PartOf (bytesOf p (s.placed id a) ++ (s.step a).owed p)
        (s.owed p ++ bytesOf p a.output) := by
    intro hsend hg he
    rw [he]
    exact bytesOf_placed hg (hfirst hsend)
  cases a with
  | recv =>
    refine hstay nofun (List.nil_sublist _) (owed_congr (recv_eq s).2 ?_)
    show s.recv.outlet.history p = _
    rw [(recv_eq s).1]
    rfl
  | take => exact hstay nofun (List.nil_sublist _) (owed_take s p)
  | hub b =>
    refine hstay nofun ?_ (owed_congr rfl rfl)
    cases b <;> exact List.Sublist.refl _
  | deliver q d =>
    rcases deliver_cases s q d with ⟨hw, -, hf⟩ | ⟨hw, -, hf⟩
    · refine hstay nofun ?_ (owed_congr rfl ?_)
      · simp only [given, hw, if_true]
        exact List.Sublist.refl _
      · unfold history Outlet.history
        rw [hf]
    · have hnone : s.placed id (.deliver q d) = [] := by
        simp [placed, given, hw]
      rw [hnone, bytesOf_nil, ByteArray.empty_append]
      rcases hf with ⟨-, hf⟩ | hf
      · have he : (s.step (.deliver q d)).owed p = s.owed p := by
          refine owed_congr rfl ?_
          unfold history Outlet.history
          rw [hf]
        rw [he]
        exact PartOf.append_right _ _
      · have hh : (s.step (.deliver q d)).history p =
            ({ s.outlet with fallback := s.outlet.fallback.deliver q d } : Outlet).history p := by
          unfold history Outlet.history
          rw [hf]
        unfold owed
        rw [hh, ByteArray.append_assoc]
        exact (PartOf.refl _).append (history_fallback s q p d)
  | send =>
    -- what is in the task's hand is placed, or lost
    have hafter : (s.step .send).owed p = (s.history p).getD ByteArray.empty := by
      show s.send.owed p = _
      cases hi : s.inHand with
      | none =>
        have he : s.send = s := by unfold send; rw [hi]
        rw [he]
        unfold owed given
        rw [hi]
        exact ByteArray.empty_append
      | some e =>
        rw [send_eq hi]
        exact ByteArray.empty_append
    rw [hafter]
    exact ((PartOf.bytesOf List.filter_sublist p).append (PartOf.refl _)).trans
      (PartOf.append_right _ _)

/-- **A run in which nothing overtakes.** -/
theorem owed_run {s : Relay} {steps : List Step} {p : PaneId} {id : Nat}
    (h : s.orderly p id steps = true) :
    PartOf (bytesOf p (s.queued id steps) ++ (s.run steps).owed p)
      (s.owed p ++ bytesOf p (flushed steps)) := by
  induction steps generalizing s with
  | nil =>
    rw [queued, bytesOf_nil, ByteArray.empty_append]
    exact PartOf.append_right _ _
  | cons a steps ih =>
    unfold orderly at h
    rw [Bool.and_eq_true, Bool.not_eq_true'] at h
    obtain ⟨hstep, hrest⟩ := h
    have hfl : flushed (a :: steps) = a.output ++ flushed steps := List.flatMap_cons
    rw [queued, hfl, bytesOf_append, bytesOf_append, run_cons, ByteArray.append_assoc]
    refine ((PartOf.refl _).append (ih hrest)).trans ?_
    rw [← ByteArray.append_assoc, ← ByteArray.append_assoc]
    exact (owed_step hstep).append (PartOf.refl _)

/-- **The order of a pane in a queue.** However flushes, messages and the steps of the task fall: if
no other output of a pane is queued for a connection while the task owes older output of the pane,
then the bytes of the pane in the connection's queue are flushed bytes in the order of their
flushes. -/
theorem queued_in_order {policy : HubPolicy} {max : Nat} {steps : List Step} {p : PaneId} {id : Nat}
    (h : (fresh policy max).orderly p id steps = true) :
    ((fresh policy max).run steps).hub.framesOf id =
        ((fresh policy max).queued id steps).map frameOf ∧
      PartOf (bytesOf p ((fresh policy max).queued id steps)) (bytesOf p (flushed steps)) := by
  refine ⟨framesOf_queued policy max steps id, ?_⟩
  have hrun := owed_run h
  have howed : (fresh policy max).owed p = ByteArray.empty := rfl
  rw [howed, ByteArray.empty_append] at hrun
  exact (PartOf.append_right _ _).trans hrun

/-- Output before a consumer asks for the pane. -/
def early : List Step :=
  [.deliver "%0" "old".toUTF8, .hub (.attach 0),
    .hub (.receive 1 "\x7b\"action\":\"subscribe\",\"paneIds\":[\"%0\"]\x7d")]

/-- The task is done before the next flush. -/
theorem queued_in_order_paid :
    let steps := early ++ [.recv, .recv, .take, .send, .deliver "%0" "new".toUTF8]
    (fresh narrow 64).orderly "%0" 1 steps = true ∧
      ((fresh narrow 64).run steps).hub.framesOf 1 =
        ((fresh narrow 64).queued 1 steps).map frameOf ∧
      PartOf (bytesOf "%0" ((fresh narrow 64).queued 1 steps)) (bytesOf "%0" (flushed steps)) := by
  intro steps
  have h : (fresh narrow 64).orderly "%0" 1 steps = true := by decide +kernel
  exact ⟨h, queued_in_order h⟩

/-! ### Overtaking -/

/-- **A flush that overtakes.** In any state in which the task is about to take a pane's history for
the live consumer, a flush of the pane that comes first is queued first, and then the task's send
puts the older bytes behind it. -/
theorem overtaken {policy : HubPolicy} {max : Nat} {before : List Step} {s : Relay} {p : PaneId}
    {pending : List PaneId} {old new : ByteArray} {id : Nat}
    (hs : s = (fresh policy max).run before) (hp : s.pending = p :: pending)
    (hi : s.inHand = none) (hold : s.history p = some old) (hc : s.hub.Concerns id p new)
    (hr : s.hub.hasRoom id = true) (hr' : (s.hub.broadcast p new).hasRoom id = true) :
    (s.run [.deliver p new, .take, .send]).hub.framesOf id =
      s.hub.framesOf id ++ [Frame.encode p new, Frame.encode p old] := by
  have hsolid : Solid s := hs ▸ (solid_fresh policy max).run before
  obtain ⟨acts, ha⟩ := hub_run policy max before
  rw [← hs] at ha
  have hb : Booked acts s.hub := ha ▸ booked_run policy acts
  have hw : (s.hub.isActive && s.hub.isWanted p) = true := by
    unfold isActive
    rw [hc.2.1, hc.2.2]
    rfl
  obtain ⟨-, hhub, hfall⟩ := (deliver_cases s p new).resolve_right fun h => by
    rw [hw] at h
    cases h.1
  have hold' : (s.step (.deliver p new)).history p = some old := by
    rw [← hold]
    unfold history Outlet.history
    rw [hfall]
  obtain ⟨-, hhand⟩ := take_of_some (s := s.step (.deliver p new)) hp hi hold'
  have htake : ((s.step (.deliver p new)).step .take).hub = s.hub.broadcast p new :=
    (take_cases _).1.trans hhub
  -- the flush leaves the consumer and its panes alone
  obtain ⟨-, -, connections, hflush⟩ := broadcast_of_room hc hr
  have hc' : (s.hub.broadcast p new).Concerns id p old := by
    rw [hflush]
    exact ⟨hsolid.kept p old hold, hc.2.1, hc.2.2⟩
  have hsend : (s.run [.deliver p new, .take, .send]).hub =
      (s.hub.broadcast p new).broadcast p old := by
    have h := congrArg hub (send_eq hhand)
    rw [htake] at h
    exact h
  rw [hsend, (hb.broadcast p new).framesOf_broadcast, if_pos ⟨hc', hr'⟩, hb.framesOf_broadcast,
    if_pos ⟨hc, hr⟩, List.append_assoc]
  rfl

/-- A hub with room for more than one frame. -/
def roomy : HubPolicy := { narrow with sendQueueCapacity := 256 }

/-- **The queue is out of order:** a flush falls between the consumer's message and the task's
answer to it, and the bytes that were flushed first are queued last. -/
theorem newest_first :
    let steps := early ++ [.deliver "%0" "new".toUTF8, .recv, .recv, .take, .send]
    let s := fresh roomy 64
    flushed steps = [⟨"%0", "old".toUTF8⟩, ⟨"%0", "new".toUTF8⟩] ∧
      (s.run steps).hub.framesOf 1 =
        [Frame.encode "%0" "new".toUTF8, Frame.encode "%0" "old".toUTF8] ∧
      bytesOf "%0" (s.queued 1 steps) = "newold".toUTF8 ∧
      ¬ PartOf (bytesOf "%0" (s.queued 1 steps)) (bytesOf "%0" (flushed steps)) := by
  refine ⟨rfl, ?_, ?_, ?_⟩ <;> decide +kernel

end Relay

end PaneRelay.Hub
