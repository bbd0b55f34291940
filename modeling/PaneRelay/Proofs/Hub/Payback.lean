import PaneRelay.Hub.Route
import PaneRelay.Proofs.Hub.Gating
import PaneRelay.Proofs.Replay

/-! # What becomes of a history

A task follows the journal and pays histories back: it takes a pane's history, and sends it. Between
the two, and between the entry in the journal and both, anything may happen to the hub. The task
takes a history whoever is live by then, and what it has taken it never puts back. So the bytes reach
a queue exactly if, when they are sent, a consumer is live that still asks for the pane and has room.

* `Relay`, `Relay.step`: the hub with its fallback, and the task in its single steps.
* `Relay.answer_eq`: the steps without interruption are the task's answer to an entry.
* `Relay.history_step`: only a take removes a history.
* `Relay.taken_paid_iff`: when a history that was taken reaches a queue.
* `Relay.history_lost`: a history that reaches none. -/

namespace PaneRelay.Hub

/-- The history of a pane, if the fallback keeps one. -/
def Outlet.history (o : Outlet) (p : PaneId) : Option ByteArray :=
  match o.fallback with
  | .recorded _ => none
  | .kept r => r.history p

/-- The panes whose histories a signal calls for. -/
def Signal.panes : Signal → List PaneId
  | .entry (.subscribed panes) => panes
  | _ => []

/-- **A hub with its fallback, and the task that pays histories back.** -/
structure Relay where
  /-- The hub and its fallback. -/
  outlet : Outlet
  /-- How far the task has read the journal. -/
  follower : Follower := {}
  /-- The panes of the entry it is at that it has not come to yet. -/
  pending : List PaneId := []
  /-- A history that it has taken and not sent yet. -/
  inHand : Option (PaneId × ByteArray) := none

namespace Relay

/-- **What can happen.** -/
inductive Step where
  /-- Something happens to the hub. -/
  | hub (a : Act)
  /-- A flush. -/
  | deliver (p : PaneId) (data : ByteArray)
  /-- The task reads on in the journal. -/
  | recv
  /-- It takes the next history. -/
  | take
  /-- It sends what it has taken. -/
  | send

/-- Whether a step is one of the task. -/
def Step.isTask : Step → Bool
  | .hub _ | .deliver _ _ => false
  | _ => true

/-- The hub. -/
def hub (s : Relay) : Hub := s.outlet.hub

/-- The history of a pane. -/
def history (s : Relay) (p : PaneId) : Option ByteArray := s.outlet.history p

/-- A hub that was not used yet, with an empty fallback. -/
def fresh (policy : HubPolicy) (max : Nat) : Relay :=
  { outlet := { hub := Hub.fresh policy, fallback := .kept { max } } }

/-- The task reads on, if it is done with the entry before. -/
def recv (s : Relay) : Relay :=
  match s.inHand, s.pending, s.follower.next s.hub.journal with
  | none, [], some (signal, follower) => { s with follower, pending := signal.panes }
  | _, _, _ => s

/-- The task takes the history of the next pane, if there is one. -/
def take (s : Relay) : Relay :=
  match s.inHand, s.pending with
  | none, p :: pending =>
    match s.outlet.fallback with
    | .recorded _ => { s with pending }
    | .kept r =>
      match r.take p with
      | (none, _) => { s with pending }
      | (some d, r) =>
        { s with outlet := { s.outlet with fallback := .kept r }, pending, inHand := some (p, d) }
  | _, _ => s

/-- The task sends the history in its hand. -/
def send (s : Relay) : Relay :=
  match s.inHand with
  | none => s
  | some (p, d) =>
    { s with outlet := { s.outlet with hub := s.outlet.hub.broadcast p d }, inHand := none }

/-- The state after a step. -/
def step (s : Relay) : Step → Relay
  | .hub a => { s with outlet := { s.outlet with hub := s.outlet.hub.act a } }
  | .deliver p d => { s with outlet := s.outlet.deliver p d }
  | .recv => s.recv
  | .take => s.take
  | .send => s.send

/-- **The state after a run.** -/
def run (s : Relay) (steps : List Step) : Relay := steps.foldl step s

@[simp] theorem run_nil (s : Relay) : s.run [] = s := rfl

@[simp] theorem run_cons (s : Relay) (a : Step) (steps : List Step) :
    s.run (a :: steps) = (s.step a).run steps := rfl

theorem run_append (s : Relay) (as bs : List Step) : s.run (as ++ bs) = (s.run as).run bs :=
  List.foldl_append

/-! ### The steps are the task's -/

/-- A take and a send without anything in between pay back one history. -/
theorem replay_eq {s : Relay} {p : PaneId} {pending : List PaneId} (hp : s.pending = p :: pending)
    (hh : s.inHand = none) :
    (s.step .take).step .send = { s with outlet := s.outlet.replay p, pending } := by
  obtain ⟨⟨hub, fallback⟩, follower, ps, inHand⟩ := s
  cases hp
  cases hh
  cases fallback with
  | recorded chunks => rfl
  | kept r =>
    cases hr : r.take p with
    | mk d r' =>
      unfold Outlet.replay step take send
      cases d with
      | none => simp only [hr]
      | some d => simp only [hr]

/-- **The task's answer to an entry**, step by step. -/
theorem answer_eq {s : Relay} (hh : s.inHand = none) :
    s.run (s.pending.flatMap fun _ => [.take, .send]) =
      { s with outlet := s.pending.foldl Outlet.replay s.outlet, pending := [] } := by
  obtain ⟨outlet, follower, pending, inHand⟩ := s
  cases hh
  induction pending generalizing outlet with
  | nil => rfl
  | cons p pending ih =>
    rw [List.flatMap_cons, List.cons_append, run_cons, List.cons_append, run_cons,
      replay_eq rfl rfl]
    exact ih (outlet.replay p)

/-! ### Histories are not empty -/

open Replay (append_isEmpty history_push history_forget)

/-- **A flush adds to one history at most**, and what it leaves there holds bytes. -/
theorem history_deliver (o : Outlet) (p : PaneId) (data : ByteArray) (q : PaneId) :
    (o.deliver p data).history q = o.history q ∨
      ∃ d, (o.deliver p data).history q = some d ∧ d.isEmpty = false := by
  obtain ⟨hub, fallback⟩ := o
  unfold Outlet.deliver
  cases hd : data.isEmpty with
  | true => exact .inl rfl
  | false =>
    simp only [Bool.false_eq_true, if_false]
    split
    · exact .inl rfl
    cases fallback with
    | recorded chunks => exact .inl rfl
    | kept r =>
      show (r.push p data).history q = r.history q ∨ ∃ d, (r.push p data).history q = some d ∧ _
      rw [history_push, hd, Bool.false_or]
      by_cases hm : r.max = 0
      · left
        rw [if_pos (by simp [hm])]
      · rw [if_neg (by simp [hm])]
        by_cases hq : q = p
        · rw [if_pos hq]
          exact .inr ⟨_, rfl, append_isEmpty hm hd⟩
        · rw [if_neg hq]
          exact .inl rfl

/-- **Every history holds bytes**, in the fallback and in the task's hand. -/
structure Solid (s : Relay) : Prop where
  kept : ∀ p d, s.history p = some d → d.isEmpty = false
  held : ∀ p d, s.inHand = some (p, d) → d.isEmpty = false

theorem solid_fresh (policy : HubPolicy) (max : Nat) : Solid (fresh policy max) where
  kept p d h := by cases h
  held p d h := by cases h

theorem take_eq {s : Relay} {p : PaneId} {pending : List PaneId} {r : Replay}
    (hp : s.pending = p :: pending) (hh : s.inHand = none) (hr : s.outlet.fallback = .kept r) :
    s.take = match r.history p with
      | none => { s with pending }
      | some d => { s with outlet := { s.outlet with fallback := .kept (r.forget p) }, pending
                           inHand := some (p, d) } := by
  unfold take Replay.take
  rw [hp, hh, hr]
  simp only
  cases r.history p <;> rfl

/-- **A history that is taken** is in the task's hand, and not in the fallback. -/
theorem take_of_some {s : Relay} {p : PaneId} {pending : List PaneId} {d : ByteArray}
    (hp : s.pending = p :: pending) (hh : s.inHand = none) (hd : s.history p = some d) :
    (s.step .take).history p = none ∧ (s.step .take).inHand = some (p, d) := by
  show s.take.history p = none ∧ s.take.inHand = some (p, d)
  unfold history Outlet.history at hd
  cases hr : s.outlet.fallback with
  | recorded chunks =>
    rw [hr] at hd
    cases hd
  | kept r =>
    rw [hr] at hd
    have hd : r.history p = some d := hd
    rw [take_eq hp hh hr, hd]
    exact ⟨(history_forget r p p).trans (if_pos rfl), rfl⟩

/-- **A take** moves a history into the task's hand, or does nothing to histories. -/
theorem take_cases (s : Relay) :
    s.take.hub = s.hub ∧ ((s.take.outlet.fallback = s.outlet.fallback ∧ s.take.inHand = s.inHand) ∨
      ∃ p d, s.history p = some d ∧ s.take.history p = none ∧ s.take.inHand = some (p, d) ∧
        ∀ q, q ≠ p → s.take.history q = s.history q) := by
  cases hh : s.inHand with
  | some e =>
    have he : s.take = s := by unfold take; rw [hh]
    rw [he]
    exact ⟨rfl, .inl ⟨rfl, hh⟩⟩
  | none =>
    cases hp : s.pending with
    | nil =>
      have he : s.take = s := by unfold take; rw [hh, hp]
      rw [he]
      exact ⟨rfl, .inl ⟨rfl, hh⟩⟩
    | cons p pending =>
      cases hr : s.outlet.fallback with
      | recorded chunks =>
        have he : s.take = { s with pending } := by unfold take; rw [hh, hp, hr]
        rw [he]
        exact ⟨rfl, .inl ⟨hr, hh⟩⟩
      | kept r =>
        have hhist : ∀ q, s.history q = r.history q := fun q => by
          unfold history Outlet.history
          rw [hr]
        rw [take_eq hp hh hr]
        cases hd : r.history p with
        | none => exact ⟨rfl, .inl ⟨hr, hh⟩⟩
        | some d =>
          refine ⟨rfl, .inr ⟨p, d, (hhist p).trans hd, ?_, rfl, fun q hq => ?_⟩⟩
          · exact (history_forget r p p).trans (if_pos rfl)
          · rw [hhist]
            exact (history_forget r p q).trans (if_neg hq)

theorem recv_eq (s : Relay) : s.recv.outlet = s.outlet ∧ s.recv.inHand = s.inHand := by
  unfold recv
  split
  · exact ⟨rfl, rfl⟩
  · exact ⟨rfl, rfl⟩

theorem send_eq {s : Relay} {p : PaneId} {d : ByteArray} (h : s.inHand = some (p, d)) :
    s.send = { s with outlet := { s.outlet with hub := s.hub.broadcast p d }, inHand := none } := by
  unfold send
  rw [h]
  rfl

/-- **Only a take removes a history.** A flush may change one. -/
theorem history_step (s : Relay) {a : Step} (ha : a ≠ .take) (p : PaneId) :
    (s.step a).history p = s.history p ∨
      ∃ d, (s.step a).history p = some d ∧ d.isEmpty = false := by
  cases a with
  | hub a => exact .inl rfl
  | deliver q data => exact history_deliver s.outlet q data p
  | take => exact absurd rfl ha
  | recv =>
    left
    show s.recv.outlet.history p = _
    rw [(recv_eq s).1]
    rfl
  | send =>
    left
    show s.send.history p = _
    cases h : s.inHand with
    | none =>
      unfold send
      rw [h]
    | some e =>
      rw [send_eq h]
      rfl

/-- Only a take puts a history into the task's hand, and only a send takes it away. -/
theorem inHand_step (s : Relay) {a : Step} (ha : a ≠ .take) (hb : a ≠ .send) :
    (s.step a).inHand = s.inHand := by
  cases a with
  | hub a => rfl
  | deliver q data => rfl
  | take => exact absurd rfl ha
  | recv => exact (recv_eq s).2
  | send => exact absurd rfl hb

theorem Solid.step {s : Relay} (h : Solid s) (a : Step) : Solid (s.step a) := by
  by_cases ha : a = .take
  · subst ha
    obtain ⟨-, ⟨hf, hi⟩ | ⟨p, d, hd, hn, hi, hq⟩⟩ := take_cases s
    · refine ⟨fun p d hd => h.kept p d ?_, fun p d hd => h.held p d (hi ▸ hd)⟩
      have he : s.take.history p = s.history p := by
        unfold history Outlet.history
        rw [hf]
      rw [← he]
      exact hd
    · refine ⟨fun q e he => ?_, fun q e he => ?_⟩
      · have he : s.take.history q = some e := he
        by_cases hqp : q = p
        · rw [hqp, hn] at he
          cases he
        · rw [hq q hqp] at he
          exact h.kept q e he
      · have he : s.take.inHand = some (q, e) := he
        rw [hi] at he
        cases he
        exact h.kept p d hd
  · refine ⟨fun p d hd => ?_, fun p d hd => ?_⟩
    · rcases history_step s ha p with he | ⟨e, he, hne⟩
      · exact h.kept p d (he ▸ hd)
      · rw [he] at hd
        cases hd
        exact hne
    · by_cases hb : a = .send
      · subst hb
        have hd : s.send.inHand = some (p, d) := hd
        cases hi : s.inHand with
        | none =>
          unfold send at hd
          rw [hi] at hd
          rw [hi] at hd
          cases hd
        | some e =>
          rw [send_eq hi] at hd
          cases hd
      · rw [inHand_step s ha hb] at hd
        exact h.held p d hd

theorem Solid.run {s : Relay} (h : Solid s) (steps : List Step) : Solid (s.run steps) := by
  induction steps generalizing s with
  | nil => exact h
  | cons a steps ih => exact ih (h.step a)

/-! ### The hub of a relay -/

/-- The acts of the hub in a step. -/
theorem hub_step (s : Relay) (a : Step) : (s.step a).hub = s.hub ∨ ∃ b, (s.step a).hub = s.hub.act b := by
  cases a with
  | hub a => exact .inr ⟨a, rfl⟩
  | take => exact .inl (take_cases s).1
  | recv =>
    left
    show s.recv.outlet.hub = _
    rw [(recv_eq s).1]
    rfl
  | send =>
    show s.send.hub = s.hub ∨ _
    cases h : s.inHand with
    | none =>
      unfold send
      rw [h]
      exact .inl rfl
    | some e =>
      exact .inr ⟨.broadcast e.1 e.2, congrArg hub (send_eq h)⟩
  | deliver p data =>
    show (s.outlet.deliver p data).hub = s.hub ∨ ∃ b, (s.outlet.deliver p data).hub = s.hub.act b
    unfold Outlet.deliver
    split
    · exact .inl rfl
    · split
      · exact .inr ⟨.broadcast p data, rfl⟩
      · exact .inl rfl

/-- **The hub of a relay runs** as any hub does. -/
theorem hub_run (policy : HubPolicy) (max : Nat) (steps : List Step) :
    ∃ acts, ((fresh policy max).run steps).hub = (Hub.fresh policy).run acts := by
  have hmore : ∀ (s : Relay) (acts : List Act), s.hub = (Hub.fresh policy).run acts →
      ∃ acts', (s.run steps).hub = (Hub.fresh policy).run acts' := by
    intro s acts hs
    induction steps generalizing s acts with
    | nil => exact ⟨acts, hs⟩
    | cons a steps ih =>
      rcases hub_step s a with he | ⟨b, he⟩
      · exact ih (s.step a) acts (he.trans hs)
      · refine ih (s.step a) (acts ++ [b]) ?_
        rw [he, hs, Hub.run_append]
        rfl
  exact hmore (fresh policy max) [] rfl

/-! ### Paid, or lost -/

/-- **Whether a consumer is there for a pane:** it is live, asks for the pane and has room. -/
def Open (h : Hub) (p : PaneId) : Prop :=
  ∃ id, h.live = some id ∧ h.isWanted p = true ∧ h.hasRoom id = true

/-- Output for a pane that nobody is there for reaches no queue. -/
theorem framesOf_broadcast_of_not {acts : List Act} {h : Hub} (hb : Booked acts h) {p : PaneId}
    {d : ByteArray} (ho : ¬ Open h p) (id : Nat) : (h.broadcast p d).framesOf id = h.framesOf id := by
  rw [hb.framesOf_broadcast, if_neg, List.append_nil]
  rintro ⟨⟨-, hl, hw⟩, hr⟩
  exact ho ⟨id, hl, hw, hr⟩

/-- **When a history is paid back:** a send reaches the live consumer's queue exactly if that
consumer is there for the pane at that moment. -/
theorem paid_iff {acts : List Act} {h : Hub} (hb : Booked acts h) {p : PaneId} {d : ByteArray}
    (hd : d.isEmpty = false) :
    (∃ id, h.live = some id ∧
      (h.broadcast p d).framesOf id = h.framesOf id ++ [Frame.encode p d]) ↔ Open h p := by
  constructor
  · rintro ⟨id, -, hf⟩
    by_cases ho : Open h p
    · exact ho
    · rw [framesOf_broadcast_of_not hb ho] at hf
      have hlen := congrArg List.length hf
      rw [List.length_append, List.length_singleton] at hlen
      omega
  · rintro ⟨id, hl, hw, hr⟩
    refine ⟨id, hl, ?_⟩
    rw [hb.framesOf_broadcast, if_pos ⟨⟨hd, hl, hw⟩, hr⟩]

theorem inHand_run {s : Relay} {steps : List Step} (h : ∀ a ∈ steps, a.isTask = false) :
    (s.run steps).inHand = s.inHand := by
  induction steps generalizing s with
  | nil => rfl
  | cons a steps ih =>
    have ha := h a List.mem_cons_self
    have hi : (s.step a).inHand = s.inHand := by
      refine inHand_step s ?_ ?_
      · rintro rfl
        cases ha
      · rintro rfl
        cases ha
    rw [run_cons, ih fun b hb => h b (List.mem_cons_of_mem _ hb), hi]

/-- **What becomes of a history that is taken**, after any run. From then on it is in the task's hand
only, whatever happens to the hub. When it is sent it is placed in the live consumer's queue if and
only if that consumer is there for the pane; else it is placed in no queue, and neither the task nor
the fallback has it any more. Steps other than a take leave every history in place. -/
theorem taken_paid_iff {policy : HubPolicy} {max : Nat} {before between : List Step} {s t : Relay}
    {p : PaneId} {pending : List PaneId} {d : ByteArray}
    (hs : s = (fresh policy max).run before) (hp : s.pending = p :: pending)
    (hh : s.inHand = none) (hd : s.history p = some d)
    (ht : t = (s.step .take).run between) (hb : ∀ a ∈ between, a.isTask = false) :
    (s.step .take).history p = none ∧ t.inHand = some (p, d) ∧
    ((∃ id, t.hub.live = some id ∧
        (t.step .send).hub.framesOf id = t.hub.framesOf id ++ [Frame.encode p d]) ↔
      Open t.hub p) ∧
    (¬ Open t.hub p →
      (∀ id, (t.step .send).hub.framesOf id = t.hub.framesOf id) ∧ (t.step .send).inHand = none ∧
        ∀ q, (t.step .send).history q = t.history q) ∧
    ∀ a, a ≠ .take → ∀ q e, s.history q = some e → ∃ e', (s.step a).history q = some e' := by
  have hsolid : Solid s := hs ▸ (solid_fresh policy max).run before
  obtain ⟨hnone, hhand⟩ := take_of_some hp hh hd
  have hi : t.inHand = some (p, d) := by rw [ht, inHand_run hb, hhand]
  have hbooked : ∃ acts, Booked acts t.hub := by
    obtain ⟨acts, ha⟩ := hub_run policy max (before ++ .take :: between)
    refine ⟨acts, ?_⟩
    have he : t = (fresh policy max).run (before ++ .take :: between) := by
      rw [ht, hs, run_append]
      rfl
    rw [he, ha]
    exact booked_run policy acts
  obtain ⟨acts, hbooked⟩ := hbooked
  have hsend : t.step .send = _ := send_eq hi
  rw [hsend]
  refine ⟨hnone, hi, paid_iff hbooked (hsolid.kept p d hd), fun ho => ⟨?_, rfl, fun q => rfl⟩, ?_⟩
  · exact framesOf_broadcast_of_not hbooked ho
  · intro a ha q e he
    rcases history_step s ha q with hq | ⟨e', hq, -⟩
    · exact ⟨e, hq.trans he⟩
    · exact ⟨e', hq⟩

/-- A hub whose queues hold one frame. -/
def narrow : HubPolicy where
  port := 0
  writeTimeout := 2000
  pingInterval := 10000
  pongTimeout := 30000
  sendQueueCapacity := 1

/-- Three panes have a history when a consumer asks for all of them; the task has sent two. -/
def crowded : List Step :=
  [.deliver "%0" "one".toUTF8, .deliver "%1" "two".toUTF8, .deliver "%2" "three".toUTF8,
    .hub (.attach 0), .hub (.receive 1 "\x7b\"action\":\"subscribe\",\"paneIds\":[\"%0\",\"%1\",\"%2\"]\x7d"),
    .recv, .recv, .take, .send, .take, .send]

/-- The third history is taken, and nobody is there for it. -/
theorem taken_unpaid :
    let s := (fresh narrow 64).run crowded
    let t := (s.step .take).run [.hub (.serve 0)]
    ¬ Open t.hub "%2" ∧ ∀ id, (t.step .send).hub.framesOf id = t.hub.framesOf id := by
  intro s t
  have hn : t.hub.live = none := by decide +kernel
  have ho : ¬ Open t.hub "%2" := by
    rintro ⟨id, hl, -⟩
    rw [hn] at hl
    cases hl
  have hs : s.pending = ["%2"] ∧ s.inHand = none ∧ s.history "%2" = some "three".toUTF8 := by
    decide +kernel
  obtain ⟨hp, hh, hd⟩ := hs
  obtain ⟨-, -, -, hlost, -⟩ := taken_paid_iff (s := s) (t := t) rfl hp hh hd rfl (by decide)
  exact ⟨ho, (hlost ho).1⟩

/-- **A history is lost:** after the third take and send nobody is live, the fallback has the history
no more, and the only frame that was ever queued is that of the first pane. -/
theorem history_lost :
    let s := (fresh narrow 64).run crowded
    let u := (s.step .take).step .send
    s.history "%2" = some "three".toUTF8 ∧ u.history "%2" = none ∧ u.inHand = none ∧
      u.hub.live = none ∧ u.hub.entries = [(1, [Frame.encode "%0" "one".toUTF8])] := by
  decide +kernel

end Relay

end PaneRelay.Hub
