import PaneRelay.Proofs.Hub.Journal
import PaneRelay.Proofs.Json.Shape

/-! # What a text from the consumer can do

A consumer may send any text whatever. A text that is no control message is counted and answered,
and a message that asks for nothing known is passed over; neither touches the table. The others add
to the table or take from it, and say so once: the same message again finds nothing to change. No
text ends a connection.

* `message_of_decode`: a text that can be read has an action and a list of IDs.
* `Refused`, `Joined`, `Parted`: what a text that is no message, and the two kinds of message, change.
* `Obeyed`: what a message with some action changes.
* `receive_fails_open`: one of these happens, nothing else, and no empty ID gets into the table. -/

namespace PaneRelay.Hub

open Control (Message ControlError)
open Json (Value Fault decode)

/-! ### Reading -/

/-- **A text that can be read** has an action and a list of IDs. -/
theorem message_of_decode {text : String} {v : Value} (h : decode Control.shape text = .ok v) :
    ∃ action listed, v = .record [.text action, .texts listed] := by
  have hfits : Json.fits Control.shape v = true := Json.fits_of_decode (by decide) h
  match v, hfits with
  | .record [.text action, .texts listed], _ => exact ⟨action, listed, rfl⟩

theorem parse_of_error {text : String} {f : Fault} (h : decode Control.shape text = .error f) :
    Control.parse text = .error (.malformed (f.report text)) := by
  unfold Control.parse
  rw [h]

theorem parse_of_message {text action : String} {listed : List PaneId}
    (h : decode Control.shape text = .ok (.record [.text action, .texts listed])) :
    Control.parse text = .ok (.of action listed) := by
  unfold Control.parse
  rw [h]

theorem receive_of_error {text : String} {f : Fault} (h : Hub) (id : Nat)
    (hf : decode Control.shape text = .error f) :
    h.receive id text = { h with metrics := h.metrics.controlError }.modify id fun c =>
      { c with outbox := c.outbox.offer h.policy.sendQueueCapacity
                 (.text (Notice.ofControlError (.malformed (f.report text))).text) } := by
  unfold receive
  rw [parse_of_error hf]

theorem receive_of_message {text action : String} {listed : List PaneId} (h : Hub) (id : Nat)
    (hm : decode Control.shape text = .ok (.record [.text action, .texts listed])) :
    h.receive id text = match (Message.of action listed).request with
      | .subscribe ids => h.subscribe id ids
      | .unsubscribe ids => h.unsubscribe id ids
      | .unknown _ => h := by
  cases hr : (Message.of action listed).request <;>
    simp only [receive, parse_of_message hm, hr]

/-- The IDs that count, among those listed. -/
def named (listed : List PaneId) : List PaneId := listed.filter fun id => !id.isEmpty

theorem mem_named {listed : List PaneId} {p : PaneId} : p ∈ named listed ↔ p ∈ listed ∧ p ≠ "" := by
  simp [named, List.mem_filter]

/-! ### What a text changes -/

/-- **The answer to a text that is no message**, given what is wrong with it. -/
def answer (reason : String) : Outgoing :=
  .text (Notice.error ("malformed control message: " ++ reason)).text

/-- **A text is refused:** it is counted, and answered once if there is room for the answer. -/
structure Refused (h h' : Hub) (id : Nat) (reason : String) : Prop where
  rest : h' = { h with metrics := h'.metrics, connections := h'.connections }
  counted : h'.metrics = { h.metrics with controlErrors := h.metrics.controlErrors + 1 }
  answered : h'.connections = h.connections.map fun c =>
    if c.id = id ∧ c.outbox.hasRoom h.policy.sendQueueCapacity = true then
      { c with outbox := { c.outbox with log := c.outbox.log ++ [answer reason] } }
    else c

/-- **Panes are asked for:** the table grows by those listed, and what is new is told once. -/
structure Joined (h h' : Hub) (listed : List PaneId) : Prop where
  table : ∀ p, p ∈ h'.wanted ↔ p ∈ h.wanted ∨ p ∈ listed ∧ p ≠ ""
  told : h' = h ∨ ∃ new, new ≠ [] ∧ new.Nodup ∧ (∀ p, p ∈ new ↔ p ∈ h'.wanted ∧ p ∉ h.wanted) ∧
    h' = { h with wanted := h'.wanted, journal := h.journal ++ [.subscribed new] }

/-- **Panes are given up:** the table shrinks by those listed, and what is gone is told once. -/
structure Parted (h h' : Hub) (listed : List PaneId) : Prop where
  table : ∀ p, p ∈ h'.wanted ↔ p ∈ h.wanted ∧ ¬ (p ∈ listed ∧ p ≠ "")
  told : h' = h ∨ ∃ gone, gone ≠ [] ∧ gone.Nodup ∧
    (∀ p, p ∈ gone ↔ p ∈ h.wanted ∧ p ∉ h'.wanted) ∧
    h' = { h with wanted := h'.wanted, journal := h.journal ++ [.unsubscribed gone] }

/-- **What a message changes.** -/
def Obeyed (h h' : Hub) (action : String) (listed : List PaneId) : Prop :=
  if action = "subscribe" then Joined h h' listed
  else if action = "unsubscribe" then Parted h h' listed
  else h' = h

variable {h : Hub} {id : Nat}

theorem refused_receive {text : String} {f : Fault}
    (hf : decode Control.shape text = .error f) (h : Hub) (id : Nat) :
    Refused h (h.receive id text) id (f.report text) := by
  rw [receive_of_error h id hf]
  refine ⟨rfl, rfl, List.map_congr_left fun c _ => ?_⟩
  by_cases hc : c.id = id
  · subst hc
    simp only [if_true, true_and, Outbox.offer]
    cases hr : c.outbox.hasRoom h.policy.sendQueueCapacity with
    | true => rw [Outbox.put_of_room hr]; rfl
    | false => rw [Outbox.put_of_full hr]; rfl
  · simp only [hc, if_false, false_and]

theorem joined_subscribe (hl : h.live = some id) (listed : List PaneId) :
    Joined h (h.subscribe id (named listed)) listed := by
  refine ⟨fun p => by rw [mem_subscribe hl, mem_named], ?_⟩
  rw [subscribe_eq hl]
  split
  · exact .inl rfl
  · next hn =>
    obtain ⟨hnodup, hnew⟩ := addAll_new h.wanted (named listed)
    refine .inr ⟨_, by simpa using hn, hnodup, fun p => ?_, rfl⟩
    show p ∈ _ ↔ p ∈ (addAll h.wanted (named listed)).1 ∧ p ∉ h.wanted
    rw [addAll_fst, List.mem_append]
    exact ⟨fun hp => ⟨.inr hp, hnew p hp⟩, fun hp => hp.1.resolve_left hp.2⟩

theorem parted_unsubscribe (hl : h.live = some id) (listed : List PaneId) :
    Parted h (h.unsubscribe id (named listed)) listed := by
  refine ⟨fun p => by rw [mem_unsubscribe hl, mem_named], ?_⟩
  rw [unsubscribe_eq hl]
  split
  · exact .inl rfl
  · next hn =>
    obtain ⟨hnodup, hgone⟩ := removeAll_gone h.wanted (named listed)
    refine .inr ⟨_, by simpa using hn, hnodup, fun p => ?_, rfl⟩
    show p ∈ _ ↔ p ∈ h.wanted ∧ p ∉ (removeAll h.wanted (named listed)).1
    rw [removeAll_fst, List.mem_filter]
    refine ⟨fun hp => ⟨hgone p hp, by simp [hp]⟩, fun hp => ?_⟩
    simpa [hp.1] using hp.2

/-! ### The same message again -/

/-- Panes that are all asked for are not told of. -/
theorem subscribe_of_subset {ids : List PaneId} (hs : ∀ p ∈ ids, p ∈ h.wanted) (id : Nat) :
    h.subscribe id ids = h := by
  by_cases hl : h.live = some id
  · rw [subscribe_eq hl, if_pos]
    obtain ⟨-, hnew⟩ := addAll_new h.wanted ids
    rw [List.isEmpty_iff, List.eq_nil_iff_forall_not_mem]
    intro p hp
    have hmem : p ∈ (addAll h.wanted ids).1 := by
      rw [addAll_fst]
      exact List.mem_append_right _ hp
    exact hnew p hp (((mem_addAll h.wanted ids).mp hmem).elim (fun hw => hw) (hs p))
  · exact subscribe_of_ne hl ids

/-- Panes none of which is asked for are not told of. -/
theorem unsubscribe_of_disjoint {ids : List PaneId} (hs : ∀ p ∈ ids, p ∉ h.wanted) (id : Nat) :
    h.unsubscribe id ids = h := by
  by_cases hl : h.live = some id
  · rw [unsubscribe_eq hl, if_pos]
    obtain ⟨-, hgone⟩ := removeAll_gone h.wanted ids
    rw [List.isEmpty_iff, List.eq_nil_iff_forall_not_mem]
    intro p hp
    have hw := hgone p hp
    -- it was taken out of the table, so it was listed
    have hout : p ∉ (removeAll h.wanted ids).1 := by
      rw [removeAll_fst, List.mem_filter]
      simp [hp]
    rw [mem_removeAll, not_and, not_not] at hout
    exact hs p (hout hw) hw
  · exact unsubscribe_of_ne hl ids

theorem subscribe_twice (hl : h.live = some id) (ids : List PaneId) :
    (h.subscribe id ids).subscribe id ids = h.subscribe id ids :=
  subscribe_of_subset (fun _ hp => (mem_subscribe hl ids).mpr (.inr hp)) id

theorem unsubscribe_twice (hl : h.live = some id) (ids : List PaneId) :
    (h.unsubscribe id ids).unsubscribe id ids = h.unsubscribe id ids :=
  unsubscribe_of_disjoint (fun _ hp hw => ((mem_unsubscribe hl ids).mp hw).2 hp) id

/-- **What a message changes, and that it changes nothing the next time.** -/
theorem obeyed_receive {text action : String} {listed : List PaneId}
    (hm : decode Control.shape text = .ok (.record [.text action, .texts listed]))
    (hl : h.live = some id) :
    Obeyed h (h.receive id text) action listed ∧
      (h.receive id text).receive id text = h.receive id text := by
  simp only [receive_of_message _ id hm, Message.of, Obeyed]
  by_cases hsub : action = "subscribe"
  · simp only [hsub, if_true]
    exact ⟨joined_subscribe hl listed, subscribe_twice hl _⟩
  by_cases hun : action = "unsubscribe"
  · simp only [hun, if_true]
    exact ⟨parted_unsubscribe hl listed, unsubscribe_twice hl _⟩
  · simp only [hsub, hun, if_false]
    exact ⟨trivial, trivial⟩

/-! ### Empty IDs -/

theorem empty_not_mem_receive (he : "" ∉ h.wanted) (id : Nat) (text : String) :
    "" ∉ (h.receive id text).wanted := by
  cases hd : decode Control.shape text with
  | error f =>
    rw [receive_of_error h id hd]
    exact he
  | ok v =>
    obtain ⟨action, listed, rfl⟩ := message_of_decode hd
    by_cases hl : h.live = some id
    · have hobeyed := (obeyed_receive hd hl).1
      unfold Obeyed at hobeyed
      split at hobeyed
      · simpa [hobeyed.table] using he
      · split at hobeyed
        · simpa [hobeyed.table] using he
        · rwa [hobeyed]
    · -- a message that comes for a connection that is gone
      rw [receive_of_message h id hd]
      split
      · rwa [subscribe_of_ne hl]
      · rwa [unsubscribe_of_ne hl]
      · exact he

/-- **No act puts an empty ID into the table.** -/
theorem empty_not_mem_act (he : "" ∉ h.wanted) (a : Act) : "" ∉ (h.act a).wanted := by
  have hcalm : ∀ {h' : Hub}, Calm h h' → "" ∉ h'.wanted := by
    intro h' hc
    rcases hc.live with ⟨-, hw⟩ | ⟨-, hw⟩
    · rwa [hw]
    · rw [hw]
      exact List.not_mem_nil
  cases a with
  | attach now =>
    rw [act, (attach_fields _ _).2.1]
    exact List.not_mem_nil
  | drop id reason => exact hcalm (dropConnection_calm h id reason)
  | receive id text => exact empty_not_mem_receive he id text
  | broadcast p d =>
    rw [act]
    rcases broadcast_effect h p d with hq | ⟨h', id, hq, hl, heq⟩
    · rwa [hq.wanted]
    · obtain ⟨-, -, hw, -⟩ := dropConnection_of_live (hq.live.trans hl) fullReason
      rw [heq, hw]
      exact List.not_mem_nil
  | take id => exact he
  | adjust id f => exact he
  | serve now => exact hcalm (serve_calm h now)
  | start bound => exact he
  | beginStop => exact hcalm (beginStop_calm h)
  | finishStop => exact he
  | cancel => exact hcalm (cancel_calm h)

theorem empty_not_mem_run (he : "" ∉ h.wanted) (acts : List Act) : "" ∉ (h.run acts).wanted := by
  induction acts generalizing h with
  | nil => exact he
  | cons a acts ih => exact ih (empty_not_mem_act he a)

/-! ### Any text -/

/-- **No text ends a connection or spoils the table.** Whatever the hub is like, a text from the live
consumer leaves it live. If it is no control message, it is counted and answered once, if there is
room; if it is one, the table changes as it says, empty IDs apart, and the same message once more
changes nothing. So no empty ID ever gets into the table. -/
theorem receive_fails_open :
    (∀ (h : Hub) (id : Nat) (text : String), h.live = some id →
      (h.receive id text).live = some id ∧
        ((∃ f, decode Control.shape text = .error f ∧
            Refused h (h.receive id text) id (f.report text)) ∨
          ∃ action listed,
            decode Control.shape text = .ok (.record [.text action, .texts listed]) ∧
              Obeyed h (h.receive id text) action listed ∧
              (h.receive id text).receive id text = h.receive id text)) ∧
      ∀ policy acts, "" ∉ ((fresh policy).run acts).wanted := by
  refine ⟨fun h id text hl => ⟨(receive_same h id text).2.trans hl, ?_⟩,
    fun policy acts => empty_not_mem_run List.not_mem_nil acts⟩
  cases hd : decode Control.shape text with
  | error f => exact .inl ⟨f, rfl, refused_receive hd h id⟩
  | ok v =>
    obtain ⟨action, listed, rfl⟩ := message_of_decode hd
    exact .inr ⟨action, listed, rfl, obeyed_receive hd hl⟩

/-- A text that breaks off is refused, and the consumer that sent it stays. -/
theorem receive_fails_open_at_once :
    let h := (fresh default).run [.attach 0]
    h.live = some 1 ∧ (h.receive 1 "[").live = some 1 ∧
      ∃ f, decode Control.shape "[" = .error f ∧ Refused h (h.receive 1 "[") 1 (f.report "[") := by
  intro h
  obtain ⟨hlive, hrefused | ⟨action, listed, hd, -⟩⟩ := receive_fails_open.1 h 1 "[" rfl
  · exact ⟨rfl, hlive, hrefused⟩
  · have hbad : (decode Control.shape "[").isOk = false := by decide +kernel
    rw [hd] at hbad
    cases hbad

end PaneRelay.Hub
