import Mathlib.Logic.Function.Basic
import PaneRelay.Proofs.Hub.Order

/-! # A task that falls behind

The journal keeps `journalRoom` entries for the task. If more are written before the task reads on,
the oldest are gone, and so are the names of the panes in them: the task is told how many entries
it missed, and does nothing about it. A pane that was named only there stays unpaid, however much
room its consumer has.

* `Relay.unread`, `Relay.kept`: the entries ahead of the task, and those of them that it will see.
* `Relay.due`: what the task has yet to send.
* `Relay.Attended.step`: a step of the task moves what is due into the queue, and nothing else.
* `Relay.exists_idle`: the task comes to an end.
* `Relay.paid_iff_kept`: the histories that are paid back are those of the panes named in time.
* `Relay.first_unpaid`: one that is not. -/

namespace PaneRelay.Hub

open Batcher (Chunk)

/-- Whether the queue of a connection has room for so many messages more. -/
def hasRoomFor (h : Hub) (id n : Nat) : Bool :=
  (h.connection? id).any fun c => c.outbox.waiting.length + n ≤ h.policy.sendQueueCapacity

theorem hasRoomFor_iff {h : Hub} {id n : Nat} : h.hasRoomFor id n = true ↔
    ∃ c, h.connection? id = some c ∧
      c.outbox.waiting.length + n ≤ h.policy.sendQueueCapacity := by
  unfold hasRoomFor
  rw [Option.any_eq_true]
  simp only [decide_eq_true_eq]

theorem hasRoom_of_hasRoomFor {h : Hub} {id n : Nat} (hr : h.hasRoomFor id (n + 1) = true) :
    h.hasRoom id = true := by
  obtain ⟨c, hc, hn⟩ := hasRoomFor_iff.mp hr
  rw [hasRoom_eq hc]
  unfold Outbox.hasRoom
  rw [decide_eq_true_eq]
  omega

theorem hasRoomFor_broadcast {h : Hub} {id n : Nat} {p : PaneId} {d : ByteArray}
    (hr : h.hasRoomFor id (n + 1) = true) (hc : h.Concerns id p d) :
    (h.broadcast p d).hasRoomFor id n = true := by
  obtain ⟨c, hconn, hn⟩ := hasRoomFor_iff.mp hr
  have hroom := hasRoom_of_hasRoomFor hr
  rw [hasRoom_eq hconn] at hroom
  have hput := Outbox.put_of_room hroom (.frame (Frame.encode p d) d.size)
  generalize ho : ({ c.outbox with log := _ } : Outbox) = outbox at hput
  rw [broadcast_eq hc, hconn]
  simp only [hput]
  refine hasRoomFor_iff.mpr ⟨{ c with outbox }, ?_, ?_⟩
  · rw [connection?_modify (f := fun c => { c with outbox }) (fun _ => rfl), if_pos rfl, hconn]
    rfl
  · -- the frame takes one of the places
    show outbox.waiting.length + n ≤ h.policy.sendQueueCapacity
    rw [← ho]
    unfold Outbox.waiting at hn ⊢
    simp only [List.length_drop, List.length_append, List.length_singleton] at hn ⊢
    omega

/-- The panes that entries call for. -/
def calledFor (es : List Event) : List PaneId := es.flatMap fun e => (Signal.entry e).panes

namespace Relay

/-! ### What is ahead of the task -/

/-- The entries that the task has not read. -/
def unread (s : Relay) : List Event := s.hub.journal.drop s.follower.passed

/-- **The entries that it will see:** the last ones, as many as are kept for it. -/
def kept (s : Relay) : List Event := s.unread.drop (s.unread.length - journalRoom)

/-- The panes that it will come to. -/
def todo (s : Relay) : List PaneId := s.pending ++ calledFor s.kept

/-- Whether the task has done what there was to do. -/
def Idle (s : Relay) : Prop :=
  s.pending = [] ∧ s.inHand = none ∧ s.follower.next s.hub.journal = none

instance (s : Relay) : Decidable (Idle s) := inferInstanceAs (Decidable (_ ∧ _ ∧ _))

theorem kept_eq (s : Relay) :
    s.kept = s.hub.journal.drop (max s.follower.passed (s.hub.journal.length - journalRoom)) := by
  unfold kept unread
  rw [List.drop_drop, List.length_drop]
  congr 1
  omega

theorem kept_of_le {s : Relay} (h : s.unread.length ≤ journalRoom) : s.kept = s.unread := by
  unfold kept
  rw [Nat.sub_eq_zero_of_le h, List.drop_zero]

theorem Idle.todo {s : Relay} (h : Idle s) : s.todo = [] := by
  obtain ⟨hpending, -, hnext⟩ := h
  unfold Follower.next at hnext
  split at hnext
  · cases hnext
  · rw [Option.map_eq_none_iff, List.getElem?_eq_none_iff] at hnext
    unfold Relay.todo
    rw [hpending, kept_eq, List.drop_of_length_le (by omega)]
    rfl

/-- **Reading on changes nothing about what the task will come to.** What it skips was gone
before. -/
theorem todo_recv (s : Relay) : s.recv.todo = s.todo := by
  unfold recv
  split
  · next signal follower hi hp hn =>
    unfold Follower.next at hn
    unfold todo
    rw [hp, List.nil_append, kept_eq, kept_eq]
    show signal.panes ++ calledFor (s.hub.journal.drop
      (max follower.passed (s.hub.journal.length - journalRoom))) = _
    split at hn
    · next hlag =>
      cases hn
      rw [max_self, max_eq_right (by omega)]
      rfl
    · next hlag =>
      cases he : s.hub.journal[s.follower.passed]? with
      | none =>
        rw [he] at hn
        cases hn
      | some e =>
        rw [he] at hn
        cases hn
        obtain ⟨hlt, hget⟩ := List.getElem?_eq_some_iff.mp he
        rw [max_eq_left (by show _ ≤ s.follower.passed + 1; omega), max_eq_left (by omega),
          List.drop_eq_getElem_cons hlt, hget]
        rfl
  · rfl

/-! ### What is due -/

/-- **What is sent on the way along some panes**, given the histories there are: each history once,
if somebody asks for its pane. -/
def payments (wanted : PaneId → Bool) (history : PaneId → Option ByteArray) :
    List PaneId → List Chunk
  | [] => []
  | p :: ps =>
    match history p with
    | none => payments wanted history ps
    | some d => [⟨p, d⟩].filter (fun c => wanted c.pane) ++
        payments wanted (Function.update history p none) ps

theorem mem_payments {wanted : PaneId → Bool} {history : PaneId → Option ByteArray}
    {ps : List PaneId} {p : PaneId} {d : ByteArray} :
    ⟨p, d⟩ ∈ payments wanted history ps ↔
      p ∈ ps ∧ history p = some d ∧ wanted p = true := by
  induction ps generalizing history with
  | nil => simp [payments]
  | cons q ps ih =>
    unfold payments
    cases hq : history q with
    | none =>
      simp only [ih, List.mem_cons]
      constructor
      · rintro ⟨hp, hd⟩
        exact ⟨.inr hp, hd⟩
      · rintro ⟨rfl | hp, hd⟩
        · rw [hq] at hd
          cases hd.1
        · exact ⟨hp, hd⟩
    | some e =>
      simp only [List.mem_append, List.mem_filter, ih, List.mem_cons, Chunk.mk.injEq]
      by_cases hp : p = q
      · subst hp
        simp only [Function.update_self, hq, Option.some.injEq, true_and, true_or, eq_comm (a := e)]
        simp
      · simp [hp]

/-- Each pane is paid once. -/
theorem payments_nodup (wanted : PaneId → Bool) (history : PaneId → Option ByteArray)
    (ps : List PaneId) : ((payments wanted history ps).map Chunk.pane).Nodup := by
  induction ps generalizing history with
  | nil => exact List.nodup_nil
  | cons q ps ih =>
    unfold payments
    cases hq : history q with
    | none => exact ih history
    | some e =>
      have hrest := ih (Function.update history q none)
      have hnew : q ∉ (payments wanted (Function.update history q none) ps).map Chunk.pane := by
        rw [List.mem_map]
        rintro ⟨⟨r, d⟩, hc, rfl⟩
        have h := (mem_payments.mp hc).2.1
        rw [Function.update_self] at h
        cases h
      cases hw : wanted q with
      | true => simpa [hw] using ⟨by simpa using hnew, hrest⟩
      | false => simpa [hw] using hrest

/-- **What the task has yet to send** to a consumer that stays as it is: what it has in its hand,
and the histories of the panes that it will come to. -/
def due (s : Relay) : List Chunk :=
  (s.given .send).filter (fun c => s.hub.isWanted c.pane) ++
    payments s.hub.isWanted s.history s.todo

/-- The history that a pane will have once the task has done what there is to do. -/
def left (s : Relay) (p : PaneId) : Option ByteArray := if p ∈ s.todo then none else s.history p

theorem Idle.due {s : Relay} (h : Idle s) : s.due = [] := by
  unfold Relay.due given
  rw [h.todo, h.2.1]
  rfl

theorem Idle.left {s : Relay} (h : Idle s) (p : PaneId) : s.left p = s.history p := by
  unfold Relay.left
  rw [h.todo, if_neg List.not_mem_nil]

/-! ### The task pays -/

/-- **A consumer is there for all that is due.** -/
structure Attended (id : Nat) (s : Relay) : Prop where
  booked : ∃ acts, Booked acts s.hub
  solid : Solid s
  live : s.hub.live = some id
  room : s.hub.hasRoomFor id s.due.length = true

/-- **What was due is due or was sent**, and all else stays. -/
structure Pays (id : Nat) (s t : Relay) : Prop where
  live : t.hub.live = s.hub.live
  journal : t.hub.journal = s.hub.journal
  frames : t.hub.framesOf id ++ t.due.map frameOf = s.hub.framesOf id ++ s.due.map frameOf
  left : t.left = s.left

theorem Pays.refl (id : Nat) (s : Relay) : Pays id s s := ⟨rfl, rfl, rfl, rfl⟩

theorem Pays.trans {id : Nat} {s t u : Relay} (a : Pays id s t) (b : Pays id t u) : Pays id s u :=
  ⟨b.live.trans a.live, b.journal.trans a.journal, b.frames.trans a.frames, b.left.trans a.left⟩

/-- A step that leaves the hub alone, and what is due. -/
theorem Pays.of_hub {id : Nat} {s t : Relay} (hh : t.hub = s.hub) (hd : t.due = s.due)
    (hl : t.left = s.left) : Pays id s t :=
  ⟨by rw [hh], by rw [hh], by rw [hh, hd], hl⟩

theorem Attended.of_hub {id : Nat} {s t : Relay} (h : Attended id s) (hsolid : Solid t)
    (hh : t.hub = s.hub) (hd : t.due = s.due) : Attended id t :=
  ⟨hh ▸ h.booked, hsolid, hh ▸ h.live, by rw [hh, hd]; exact h.room⟩

/-- A pane without a history is passed by. -/
theorem take_of_none {s : Relay} {p : PaneId} {pending : List PaneId}
    (hp : s.pending = p :: pending) (hi : s.inHand = none) (hd : s.history p = none) :
    s.take = { s with pending } := by
  cases hr : s.outlet.fallback with
  | recorded chunks =>
    unfold take
    rw [hi, hp, hr]
  | kept r =>
    unfold history Outlet.history at hd
    rw [hr] at hd
    rw [take_eq hp hi hr, show r.history p = none from hd]

/-- A pane with a history has it no more, and the task has it. -/
theorem take_fields {s : Relay} {p : PaneId} {pending : List PaneId} {d : ByteArray}
    (hp : s.pending = p :: pending) (hi : s.inHand = none) (hd : s.history p = some d) :
    s.take.pending = pending ∧ s.take.inHand = some (p, d) ∧ s.take.follower = s.follower ∧
      s.take.history = Function.update s.history p none := by
  cases hr : s.outlet.fallback with
  | recorded chunks =>
    unfold history Outlet.history at hd
    rw [hr] at hd
    cases hd
  | kept r =>
    have hhist : s.history = r.history := by
      funext q
      unfold history Outlet.history
      rw [hr]
    rw [hhist] at hd
    rw [take_eq hp hi hr, hd, hhist]
    refine ⟨rfl, rfl, rfl, ?_⟩
    funext q
    rw [Function.update_apply]
    exact Replay.history_forget r p q

/-- **A take moves what is due from the fallback into the task's hand.** -/
theorem due_take (s : Relay) : s.take.hub = s.hub ∧ s.take.due = s.due ∧ s.take.left = s.left := by
  refine ⟨(take_cases s).1, ?_⟩
  cases hi : s.inHand with
  | some e =>
    have he : s.take = s := by unfold take; rw [hi]
    rw [he]
    exact ⟨rfl, rfl⟩
  | none =>
    cases hp : s.pending with
    | nil =>
      have he : s.take = s := by unfold take; rw [hi, hp]
      rw [he]
      exact ⟨rfl, rfl⟩
    | cons p pending =>
      have htodo : s.todo = p :: (pending ++ calledFor s.kept) := by
        unfold todo
        rw [hp]
        rfl
      cases hd : s.history p with
      | none =>
        rw [take_of_none hp hi hd]
        constructor
        · unfold due
          rw [htodo, payments, hd]
          rfl
        · funext q
          unfold left
          rw [htodo]
          show (if q ∈ pending ++ calledFor s.kept then none else s.history q) = _
          by_cases hq : q = p
          · rw [hq, hd, if_pos List.mem_cons_self, ite_self]
          · simp only [List.mem_cons, hq, false_or]
      | some d =>
        obtain ⟨hpend, hhand, hfol, hhist⟩ := take_fields hp hi hd
        have htodo' : s.take.todo = pending ++ calledFor s.kept := by
          unfold todo kept unread
          rw [hpend, hfol, (take_cases s).1]
        constructor
        · unfold due given
          rw [htodo, htodo', payments, hd, hhist, hhand, hi, (take_cases s).1]
          rfl
        · funext q
          unfold left
          rw [htodo, htodo', hhist, Function.update_apply]
          by_cases hq : q = p
          · rw [if_pos hq, ite_self, hq, if_pos List.mem_cons_self]
          · simp only [List.mem_cons, hq, false_or, if_false]

/-- Reading on changes nothing about what is due. -/
theorem due_recv (s : Relay) : s.recv.due = s.due ∧ s.recv.left = s.left := by
  obtain ⟨ho, hi⟩ := recv_eq s
  have hhist : s.recv.history = s.history := by
    funext q
    unfold history
    rw [ho]
  have hhub : s.recv.hub = s.hub := congrArg Outlet.hub ho
  constructor
  · unfold due given
    rw [hhist, hhub, hi, todo_recv]
  · unfold left
    rw [hhist, todo_recv]

/-- **A send moves what is due into the queue**, or drops what nobody asks for any more. -/
theorem Attended.send {id : Nat} {s : Relay} (h : Attended id s) :
    Attended id s.send ∧ Pays id s s.send := by
  cases hi : s.inHand with
  | none =>
    have he : s.send = s := by unfold Relay.send; rw [hi]
    rw [he]
    exact ⟨h, .refl id s⟩
  | some e =>
    obtain ⟨p, d⟩ := e
    have hsolid : Solid s.send := h.solid.step .send
    have hroom := h.room
    obtain ⟨acts, hb⟩ := h.booked
    have hdue : s.due = [(⟨p, d⟩ : Chunk)].filter (fun c => s.hub.isWanted c.pane) ++
        payments s.hub.isWanted s.history s.todo := by
      unfold due given
      rw [hi]
      rfl
    rw [send_eq hi] at hsolid ⊢
    cases hw : s.hub.isWanted p with
    | false =>
      have hnot : s.hub.broadcast p d = s.hub := broadcast_of_not fun i hc => by
        rw [hc.2.2] at hw
        cases hw
      rw [List.filter_cons_of_neg (by simp [hw])] at hdue
      rw [hnot] at hsolid ⊢
      exact ⟨h.of_hub hsolid rfl hdue.symm, .of_hub rfl hdue.symm rfl⟩
    | true =>
      have hc : s.hub.Concerns id p d := ⟨h.solid.held p d hi, h.live, hw⟩
      rw [List.filter_cons_of_pos (by simp [hw])] at hdue
      rw [hdue] at hroom
      obtain ⟨hframes, -, connections, heq⟩ := broadcast_of_room hc (hasRoom_of_hasRoomFor hroom)
      have hwant : (s.hub.broadcast p d).isWanted = s.hub.isWanted := by
        rw [heq]
        rfl
      have hjournal : (s.hub.broadcast p d).journal = s.hub.journal := by rw [heq]
      have hlive : (s.hub.broadcast p d).live = s.hub.live := by rw [heq]
      generalize hu : ({ s with outlet := { s.outlet with hub := s.hub.broadcast p d }
                                inHand := none } : Relay) = u at hsolid ⊢
      have hub : u.hub = s.hub.broadcast p d := by rw [← hu]; rfl
      have hhist : u.history = s.history := by rw [← hu]; rfl
      have htodo : u.todo = s.todo := by
        unfold todo kept unread
        rw [hub, hjournal, ← hu]
      have hrest : u.due = payments s.hub.isWanted s.history s.todo := by
        unfold due given
        rw [hub, hwant, hhist, htodo, ← hu]
        rfl
      refine ⟨⟨⟨_, hub ▸ hb.broadcast p d⟩, hsolid, ?_, ?_⟩, ⟨?_, ?_, ?_, ?_⟩⟩
      · rw [hub, hlive, h.live]
      · rw [hub, hrest]
        exact hasRoomFor_broadcast hroom hc
      · rw [hub, hlive]
      · rw [hub, hjournal]
      · rw [hub, hframes id, if_pos rfl, hrest, hdue, List.append_assoc]
        rfl
      · funext q
        unfold left
        rw [htodo, hhist]

/-- **A step of the task.** -/
theorem Attended.step {id : Nat} {s : Relay} (h : Attended id s) {a : Step} (ha : a.isTask = true) :
    Attended id (s.step a) ∧ Pays id s (s.step a) := by
  have hsolid : Solid (s.step a) := h.solid.step a
  cases a with
  | hub b => cases ha
  | deliver p d => cases ha
  | recv =>
    have hhub : s.recv.hub = s.hub := congrArg Outlet.hub (recv_eq s).1
    obtain ⟨hd, hl⟩ := due_recv s
    exact ⟨h.of_hub hsolid hhub hd, .of_hub hhub hd hl⟩
  | take =>
    obtain ⟨hhub, hd, hl⟩ := due_take s
    exact ⟨h.of_hub hsolid hhub hd, .of_hub hhub hd hl⟩
  | send => exact h.send

/-- **Any number of steps of the task.** -/
theorem Attended.run {id : Nat} {s : Relay} (h : Attended id s) {steps : List Step}
    (hs : ∀ a ∈ steps, a.isTask = true) :
    Attended id (s.run steps) ∧ Pays id s (s.run steps) := by
  induction steps generalizing s with
  | nil => exact ⟨h, .refl id s⟩
  | cons a steps ih =>
    obtain ⟨hstep, hpays⟩ := h.step (hs a List.mem_cons_self)
    obtain ⟨hrun, hmore⟩ := ih hstep fun b hb => hs b (List.mem_cons_of_mem _ hb)
    exact ⟨hrun, hpays.trans hmore⟩

/-! ### The task comes to an end -/

/-- A task that can read on has fewer entries ahead of it then. -/
theorem unread_recv {s : Relay} (hp : s.pending = []) (hi : s.inHand = none)
    (hn : s.follower.next s.hub.journal ≠ none) :
    s.recv.inHand = none ∧ s.recv.unread.length < s.unread.length := by
  obtain ⟨⟨signal, follower⟩, he⟩ := Option.ne_none_iff_exists'.mp hn
  have hrecv : s.recv = { s with follower, pending := signal.panes } := by
    unfold recv
    rw [hi, hp, he]
  have hpassed : s.follower.passed < follower.passed ∧
      s.follower.passed < s.hub.journal.length := by
    unfold Follower.next at he
    split at he
    · cases he
      constructor
      · show _ < s.hub.journal.length - journalRoom
        omega
      · omega
    · rw [Option.map_eq_some_iff] at he
      obtain ⟨e, hget, he⟩ := he
      cases he
      exact ⟨Nat.lt_succ_self _, (List.getElem?_eq_some_iff.mp hget).1⟩
  rw [hrecv]
  refine ⟨hi, ?_⟩
  unfold unread
  rw [List.length_drop, List.length_drop]
  show s.hub.journal.length - follower.passed < _
  omega

/-- **The task comes to an end.** -/
theorem exists_idle {id : Nat} {s : Relay} (h : Attended id s) (hp : s.pending = [])
    (hi : s.inHand = none) :
    ∃ steps, (∀ a ∈ steps, a.isTask = true) ∧ Idle (s.run steps) := by
  induction hm : s.unread.length using Nat.strong_induction_on generalizing s with
  | h n ih =>
    by_cases hn : s.follower.next s.hub.journal = none
    · exact ⟨[], nofun, hp, hi, hn⟩
    · obtain ⟨hhand, hless⟩ := unread_recv hp hi hn
      -- one entry, and the histories that it calls for
      let answer := s.recv.pending.flatMap fun _ => [Step.take, .send]
      have htask : ∀ a ∈ Step.recv :: answer, a.isTask = true := by
        simp only [answer, List.mem_cons, List.mem_flatMap, List.not_mem_nil, or_false]
        rintro a (rfl | ⟨-, -, rfl | rfl⟩) <;> rfl
      obtain ⟨hatt, hpays⟩ := h.run htask
      have hrun : s.run (.recv :: answer) = { s.recv with
          outlet := s.recv.pending.foldl Outlet.replay s.recv.outlet, pending := [] } :=
        answer_eq hhand
      have hunread : (s.run (.recv :: answer)).unread = s.recv.unread := by
        unfold unread
        rw [hpays.journal, hrun, show s.recv.hub = s.hub from congrArg Outlet.hub (recv_eq s).1]
      obtain ⟨steps, hsteps, hidle⟩ := ih _ (hm ▸ hunread ▸ hless) hatt (by rw [hrun])
        (by rw [hrun]; exact hhand) rfl
      refine ⟨.recv :: answer ++ steps, fun a ha => ?_, ?_⟩
      · rcases List.mem_append.mp ha with ha | ha
        · exact htask a ha
        · exact hsteps a ha
      · rw [run_append]
        exact hidle

/-! ### What is paid back -/

/-- **The histories that are paid back.** After any run, with the task at rest and a consumer live
whose queue has room for all that is due, the task runs alone. It comes to an end; and when it has
done all that there was to do, in whichever steps, the consumer is live as before, its queue has got
exactly what was due, each pane once, and a pane that it asks for had its history taken and sent if
and only if the pane is named in one of the last `journalRoom` of the unread entries. A pane that is
named only before keeps its history. If no more entries are unread, all of them are kept. -/
theorem paid_iff_kept {policy : HubPolicy} {max : Nat} {before : List Step} {t : Relay} {id : Nat}
    (ht : t = (fresh policy max).run before) (hp : t.pending = []) (hi : t.inHand = none)
    (hl : t.hub.live = some id) (hr : t.hub.hasRoomFor id t.due.length = true) :
    (∃ steps, (∀ a ∈ steps, a.isTask = true) ∧ Idle (t.run steps)) ∧
    (∀ steps, (∀ a ∈ steps, a.isTask = true) → Idle (t.run steps) →
      let u := t.run steps
      u.hub.live = some id ∧
      u.hub.framesOf id = t.hub.framesOf id ++ t.due.map frameOf ∧
      (t.due.map Chunk.pane).Nodup ∧
      ∀ p d, t.history p = some d → t.hub.isWanted p = true →
        (⟨p, d⟩ ∈ t.due ↔ p ∈ calledFor t.kept) ∧
        u.history p = if p ∈ calledFor t.kept then none else some d) ∧
    (t.unread.length ≤ journalRoom → t.kept = t.unread) := by
  obtain ⟨acts, ha⟩ := hub_run policy max before
  have hbooked : Booked acts t.hub := by
    rw [ht, ha]
    exact booked_run policy acts
  have hatt : Attended id t :=
    ⟨⟨acts, hbooked⟩, ht ▸ (solid_fresh policy max).run before, hl, hr⟩
  have htodo : t.todo = calledFor t.kept := by
    unfold todo
    rw [hp, List.nil_append]
  have hdue : t.due = payments t.hub.isWanted t.history (calledFor t.kept) := by
    unfold due given
    rw [hi, htodo]
    rfl
  refine ⟨exists_idle hatt hp hi, fun steps hs hidle => ?_, kept_of_le⟩
  obtain ⟨hatt', hpays⟩ := hatt.run hs
  refine ⟨hatt'.live, ?_, hdue ▸ payments_nodup _ _ _, fun p d hd hw => ⟨?_, ?_⟩⟩
  · have hframes := hpays.frames
    rwa [hidle.due, List.map_nil, List.append_nil] at hframes
  · rw [hdue, mem_payments]
    exact ⟨fun h => h.1, fun h => ⟨h, hd, hw⟩⟩
  · rw [← hidle.left, hpays.left, left, htodo, hd]

/-- A consumer asks for panes one by one while the task is elsewhere; the first of them has a
history. -/
def burst (n : Nat) : List Step :=
  [.deliver "%0" "missed".toUTF8, .hub (.attach 0), .recv] ++
    (List.range n).map fun k => .hub (.receive 1 ("[\"subscribe\",[\"%" ++ toString k ++ "\"]]"))

/-- A burst that the journal holds. -/
theorem paid_after_burst :
    let t := (fresh roomy 64).run (burst 3)
    t.unread.length = 3 ∧ t.due.map frameOf = [Frame.encode "%0" "missed".toUTF8] ∧
      ∃ steps, (∀ a ∈ steps, a.isTask = true) ∧ Idle (t.run steps) ∧
        (t.run steps).hub.framesOf 1 = [Frame.encode "%0" "missed".toUTF8] := by
  intro t
  obtain ⟨hp, hi, hl, hframes, hunread, hdue, hr⟩ : t.pending = [] ∧ t.inHand = none ∧
      t.hub.live = some 1 ∧ t.hub.framesOf 1 = [] ∧ t.unread.length = 3 ∧
      t.due.map frameOf = [Frame.encode "%0" "missed".toUTF8] ∧
      t.hub.hasRoomFor 1 t.due.length = true := by
    decide +kernel
  obtain ⟨⟨steps, hs, hidle⟩, hpaid, -⟩ := paid_iff_kept (t := t) rfl hp hi hl hr
  obtain ⟨-, hgot, -⟩ := hpaid steps hs hidle
  rw [hframes, hdue] at hgot
  exact ⟨hunread, hdue, steps, hs, hidle, hgot⟩

/-- **A burst of one entry too many:** the task is told that an entry is gone, answers the others,
and comes to rest. The consumer is live, asks for the first pane and has an empty queue; the history
of that pane was not taken. -/
theorem first_unpaid :
    let t := (fresh roomy 64).run (burst 65)
    let u := t.run (List.replicate 65 [Step.recv, .take, .send]).flatten
    t.history "%0" = some "missed".toUTF8 ∧ Idle u ∧ u.hub.live = some 1 ∧
      u.hub.isWanted "%0" = true ∧ u.hub.hasRoomFor 1 256 = true ∧ u.hub.framesOf 1 = [] ∧
      u.history "%0" = some "missed".toUTF8 := by
  decide +kernel

end Relay

end PaneRelay.Hub
