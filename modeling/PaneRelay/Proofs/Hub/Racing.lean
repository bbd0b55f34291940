import PaneRelay.Proofs.Hub.Routing

/-! # A flush among other things

A flush looks at a hub four times before it sends: the route looks for a live consumer and at the
panes asked for, and then the hub looks at both again. Between any two of these steps consumers may
come, go, and give panes up. If the hub does not see any more what the route saw, it does nothing,
and by then the route has decided against the fallback.

* `trySend`: the last step of a flush, into a queue that it got hold of earlier.
* `Gaps`, `Outlet.deliverAmid`: a flush in its single steps, with acts between them.
* `Outlet.deliverAmid_nil`: with nothing between them it is the flush.
* `Outlet.accounted_iff`: when the chunk is queued, handed to the fallback or counted.
* `Outlet.chunk_lost`: a chunk that is nowhere. -/

namespace PaneRelay.Hub

open Batcher (Chunk)
open Relay (frameOf)

/-! ### Sending into a queue -/

/-- Whether a queue was given up: its connection is not live, and is over. -/
def isClosed (h : Hub) (id : Nat) : Bool :=
  h.live != some id && (h.connection? id).all fun c => c.writer.isFinished

/-- **Sends a chunk into the queue of a connection**, whether or not it is live. -/
def trySend (h : Hub) (id : Nat) (c : Chunk) : Hub :=
  if h.isClosed id then h
  else
    match h.connection? id with
    | none => h
    | some conn =>
      match conn.outbox.put h.policy.sendQueueCapacity (.frame (frameOf c) c.data.size) with
      | some outbox => h.modify id fun conn => { conn with outbox }
      | none => { h with metrics := h.metrics.dropped }.dropConnection id fullReason

/-- Output for the live consumer is sent into its queue. -/
theorem broadcast_eq_trySend {h : Hub} {id : Nat} {c : Chunk}
    (hc : h.Concerns id c.pane c.data) : h.broadcast c.pane c.data = h.trySend id c := by
  have hopen : h.isClosed id = false := by
    unfold isClosed
    rw [hc.2.1, bne_self_eq_false, Bool.false_and]
  rw [broadcast_eq hc]
  unfold trySend
  rw [hopen]
  rfl

theorem trySend_of_closed {h : Hub} {id : Nat} (hc : h.isClosed id = true) (c : Chunk) :
    h.trySend id c = h := if_pos hc

/-- **With room in the queue** the chunk is placed there. -/
theorem trySend_of_room {h : Hub} {id : Nat} (hc : h.isClosed id = false)
    (hr : h.hasRoom id = true) (c : Chunk) :
    (∀ i, (h.trySend id c).framesOf i = h.framesOf i ++ if i = id then [frameOf c] else []) ∧
      (h.trySend id c).metrics = h.metrics := by
  unfold trySend
  rw [hc]
  simp only [Bool.false_eq_true, if_false]
  cases hconn : h.connection? id with
  | none => simp [hasRoom, hconn] at hr
  | some conn =>
    rw [hasRoom_eq hconn] at hr
    have hput := Outbox.put_of_room hr (.frame (frameOf c) c.data.size)
    simp only [hput]
    refine ⟨fun i => ?_, rfl⟩
    rw [framesOf_outbox hconn]
    by_cases hi : i = id
    · rw [if_pos hi, if_pos hi, Outbox.frames_put hput, hi]
      unfold framesOf
      rw [hconn]
      rfl
    · rw [if_neg hi, if_neg hi, List.append_nil]

/-- **Without room** it is counted. -/
theorem trySend_of_full {h : Hub} {id : Nat} (hc : h.isClosed id = false)
    (hs : (h.connection? id).isSome = true) (hr : h.hasRoom id = false) (c : Chunk) :
    (∀ i, (h.trySend id c).framesOf i = h.framesOf i) ∧
      (h.trySend id c).metrics = h.metrics.dropped := by
  unfold trySend
  rw [hc]
  simp only [Bool.false_eq_true, if_false]
  cases hconn : h.connection? id with
  | none => simp [hconn] at hs
  | some conn =>
    rw [hasRoom_eq hconn] at hr
    simp only [Outbox.put_of_full hr]
    have hcalm := dropConnection_calm { h with metrics := h.metrics.dropped } id fullReason
    exact ⟨fun i => hcalm.same.framesOf i, dropConnection_metrics _ _ _⟩

/-- A connection that was live stays known. -/
theorem Booked.connection?_run {acts : List Act} {h : Hub} (hb : Booked acts h) {id : Nat}
    (hl : h.live = some id) (more : List Act) : ((h.run more).connection? id).isSome = true := by
  obtain ⟨h1, h2⟩ := hb.live id hl
  have hn : attaches (acts ++ more) = attaches acts + attaches more := List.countP_append
  rw [connection?_isSome, (hb.run more).numbers, List.mem_range'_1, hn]
  omega

/-! ### A flush in its single steps -/

/-- **What happens to a hub between the steps of a flush.** -/
structure Gaps where
  /-- After the route has looked for a live consumer. -/
  first : List Act := []
  /-- After the route has looked at the panes asked for. -/
  second : List Act := []
  /-- After the hub has looked for a live consumer. -/
  third : List Act := []
  /-- After the hub has looked at the panes asked for. -/
  fourth : List Act := []

/-- All of it. -/
def Gaps.acts (g : Gaps) : List Act := g.first ++ g.second ++ g.third ++ g.fourth

/-- **Whether a connection was live and asked for a pane** at some moment of a run. -/
def AskedDuring (h : Hub) (acts : List Act) (id : Nat) (p : PaneId) : Prop :=
  ∃ past, past <+: acts ∧ (h.run past).live = some id ∧ (h.run past).isWanted p = true

namespace Outlet

/-- **A flush in its single steps**, with acts of the hub between them. -/
def deliverAmid (o : Outlet) (c : Chunk) (g : Gaps) : Outlet :=
  let h₁ := o.hub
  let h₂ := h₁.run g.first
  let h₃ := h₂.run g.second
  let h₄ := h₃.run g.third
  let h₅ := h₄.run g.fourth
  if c.data.isEmpty then { o with hub := h₅ }
  else if h₁.isActive && h₂.isWanted c.pane then
    match h₃.live with
    | none => { o with hub := h₅ }
    | some id =>
      if h₄.isWanted c.pane then { o with hub := h₅.trySend id c } else { o with hub := h₅ }
  else { hub := h₅, fallback := o.fallback.deliver c.pane c.data }

/-- **With nothing between its steps** it is the flush. -/
theorem deliverAmid_nil (o : Outlet) (c : Chunk) :
    o.deliverAmid c {} = o.deliver c.pane c.data := by
  have hdef : o.deliverAmid c {} = if c.data.isEmpty then o
      else if o.hub.isActive && o.hub.isWanted c.pane then
        match o.hub.live with
        | none => o
        | some id =>
          if o.hub.isWanted c.pane then { o with hub := o.hub.trySend id c } else o
      else { o with fallback := o.fallback.deliver c.pane c.data } := rfl
  rw [hdef]
  unfold deliver
  cases hd : c.data.isEmpty with
  | true => rfl
  | false =>
    cases hgo : o.hub.isActive && o.hub.isWanted c.pane with
    | false => rfl
    | true =>
      rw [Bool.and_eq_true] at hgo
      obtain ⟨id, hl⟩ := Option.isSome_iff_exists.mp hgo.1
      simp only [if_true, Bool.false_eq_true, if_false, hl, hgo.2]
      rw [broadcast_eq_trySend ⟨hd, hl, hgo.2⟩]

/-- **Whether a chunk is accounted for** at the end of a flush, given the hub as it would be without
the flush: it is in the queue of a connection that was live and asked for the pane at some moment,
or the fallback has recorded it, or it is counted as dropped. -/
def Accounted (o u : Outlet) (c : Chunk) (g : Gaps) (chunks : List (PaneId × ByteArray)) : Prop :=
  let h := o.hub.run g.acts
  (∃ id, u.hub.framesOf id = h.framesOf id ++ [frameOf c] ∧
      AskedDuring o.hub g.acts id c.pane) ∨
    u.fallback = .recorded (chunks ++ [(c.pane, c.data)]) ∨
    u.hub.metrics.framesDropped = h.metrics.framesDropped + 1

/-- A flush that leaves no trace. -/
theorem not_accounted {o u : Outlet} {c : Chunk} {g : Gaps} {chunks : List (PaneId × ByteArray)}
    (hf : u.fallback = .recorded chunks) (hh : u.hub = o.hub.run g.acts) :
    ¬ Accounted o u c g chunks := by
  rintro (⟨id, hid, -⟩ | hfall | hdrop)
  · rw [hh] at hid
    have hlen := congrArg List.length hid
    rw [List.length_append, List.length_singleton] at hlen
    omega
  · rw [hf] at hfall
    have hlen := congrArg List.length (Fallback.recorded.inj hfall)
    rw [List.length_append, List.length_singleton] at hlen
    omega
  · rw [hh] at hdrop
    simp at hdrop

/-- **A chunk that is sent into a queue** is accounted for if the queue is still there and either
full or that of a consumer that asked for the pane. -/
theorem accounted_trySend {o : Outlet} {c : Chunk} {g : Gaps} {chunks : List (PaneId × ByteArray)}
    (hf : o.fallback = .recorded chunks) {id : Nat}
    (hs : ((o.hub.run g.acts).connection? id).isSome = true) :
    Accounted o { o with hub := (o.hub.run g.acts).trySend id c } c g chunks ↔
      (o.hub.run g.acts).isClosed id = false ∧
        ((o.hub.run g.acts).hasRoom id = false ∨ AskedDuring o.hub g.acts id c.pane) := by
  cases hclosed : (o.hub.run g.acts).isClosed id with
  | true =>
    rw [trySend_of_closed hclosed]
    exact iff_of_false (not_accounted hf rfl) nofun
  | false =>
    cases hr : (o.hub.run g.acts).hasRoom id with
    | false =>
      obtain ⟨-, hmetrics⟩ := trySend_of_full hclosed hs hr c
      exact iff_of_true (.inr (.inr (congrArg Metrics.framesDropped hmetrics))) ⟨rfl, .inl rfl⟩
    | true =>
      obtain ⟨hframes, hmetrics⟩ := trySend_of_room hclosed hr c
      constructor
      · rintro (⟨i, hi, hasked⟩ | hfall | hdrop)
        · -- only one queue has got a frame
          rw [hframes i] at hi
          have hid : i = id := by
            by_contra hne
            rw [if_neg hne] at hi
            cases List.append_cancel_left hi
          exact ⟨rfl, .inr (hid ▸ hasked)⟩
        · have hlen := congrArg List.length (Fallback.recorded.inj (hf.symm.trans hfall))
          rw [List.length_append, List.length_singleton] at hlen
          omega
        · rw [hmetrics] at hdrop
          simp at hdrop
      · rintro ⟨-, hfull | hasked⟩
        · cases hfull
        · exact .inl ⟨id, by rw [hframes id, if_pos rfl], hasked⟩

/-- **A consumer that goes before the hub looks** takes the chunk along. -/
theorem deliverAmid_of_nobody {o : Outlet} {c : Chunk} {g : Gaps} (hd : c.data.isEmpty = false)
    (hgo : (o.hub.isActive && (o.hub.run g.first).isWanted c.pane) = true)
    (hn : ((o.hub.run g.first).run g.second).live = none) :
    o.deliverAmid c g = { o with hub := o.hub.run g.acts } := by
  unfold deliverAmid
  simp only [hd, hgo, hn, Bool.false_eq_true, if_true, if_false]
  unfold Gaps.acts
  rw [run_append, run_append, run_append]

/-- **When a chunk is accounted for.** A flush of some bytes meets a hub in any state that it can
be in, in front of a fallback that records, and anything may happen between its steps. The chunk is
accounted for if and only if the route decides for the fallback, or the hub finds a consumer live,
then finds the pane asked for, and the queue it got hold of is still there at the send and is either
full or that of a consumer that was live and asked for the pane at some moment. In all other cases
it is lost. -/
theorem accounted_iff {policy : HubPolicy} {before : List Act} {o : Outlet} {c : Chunk}
    {chunks : List (PaneId × ByteArray)} (ho : o.hub = (fresh policy).run before)
    (hf : o.fallback = .recorded chunks) (hd : c.data.isEmpty = false) (g : Gaps) :
    let h₂ := o.hub.run g.first
    let h₃ := h₂.run g.second
    let h₄ := h₃.run g.third
    let h₅ := h₄.run g.fourth
    Accounted o (o.deliverAmid c g) c g chunks ↔
      (o.hub.isActive && h₂.isWanted c.pane) = false ∨
      ∃ id, h₃.live = some id ∧ h₄.isWanted c.pane = true ∧ h₅.isClosed id = false ∧
        (h₅.hasRoom id = false ∨ AskedDuring o.hub g.acts id c.pane) := by
  intro h₂ h₃ h₄ h₅
  have hlast : h₅ = o.hub.run g.acts := by
    unfold Gaps.acts
    rw [run_append, run_append, run_append]
  cases hgo : o.hub.isActive && h₂.isWanted c.pane with
  | false =>
    refine iff_of_true (.inr (.inl ?_)) (.inl rfl)
    unfold deliverAmid
    rw [if_neg (by simp [hd]), if_neg (by simp [hgo, h₂]), hf]
    rfl
  | true =>
    cases hl : h₃.live with
    | none =>
      rw [deliverAmid_of_nobody hd hgo hl]
      exact iff_of_false (not_accounted hf rfl) (by simp)
    | some id =>
      have hdef : o.deliverAmid c g = if h₄.isWanted c.pane then
          { o with hub := h₅.trySend id c } else { o with hub := h₅ } := by
        unfold deliverAmid
        rw [if_neg (by simp [hd]), if_pos hgo, hl]
      rw [hdef]
      cases hw : h₄.isWanted c.pane with
      | false =>
        simp only [Bool.false_eq_true, if_false]
        exact iff_of_false (not_accounted hf hlast) (by simp)
      | true =>
        have hs : (h₅.connection? id).isSome = true := by
          have hb : Booked (before ++ (g.first ++ g.second)) h₃ := by
            have h := booked_run policy (before ++ (g.first ++ g.second))
            rwa [run_append, ← ho, run_append] at h
          have h := hb.connection?_run hl (g.third ++ g.fourth)
          rwa [run_append] at h
        simp only [if_true, Bool.true_eq_false, false_or, Option.some.injEq, exists_eq_left',
          true_and]
        rw [hlast] at hs ⊢
        exact accounted_trySend hf hs

/-- A consumer that asks for a pane. -/
def asking : List Act := [.attach 0, .receive 1 "[\"subscribe\",[\"%0\"]]"]

/-- The consumer goes after the hub has looked: the frame is in its queue. -/
theorem accounted_of_late_drop :
    let o : Outlet := ⟨(fresh Relay.roomy).run asking, .recorded []⟩
    let c : Chunk := ⟨"%0", "data".toUTF8⟩
    let g : Gaps := { fourth := [.drop 1 "peer closed"] }
    c.data.isEmpty = false ∧ Accounted o (o.deliverAmid c g) c g [] := by
  intro o c g
  have hd : c.data.isEmpty = false := by decide
  obtain ⟨hl, hw, hclosed⟩ : o.hub.live = some 1 ∧ o.hub.isWanted "%0" = true ∧
      (o.hub.run [.drop 1 "peer closed"]).isClosed 1 = false := by
    decide +kernel
  have ho : o.hub = (fresh Relay.roomy).run asking := rfl
  exact ⟨hd, (accounted_iff ho rfl hd g).mpr
    (.inr ⟨1, hl, hw, hclosed, .inr ⟨[], List.nil_prefix, hl, hw⟩⟩)⟩

/-- **A chunk is lost:** the consumer goes when the route has looked and the hub has not. Nothing
is queued, recorded or counted. -/
theorem chunk_lost :
    let o : Outlet := ⟨(fresh Relay.roomy).run asking, .recorded []⟩
    let c : Chunk := ⟨"%0", "data".toUTF8⟩
    let g : Gaps := { second := [.drop 1 "peer closed"] }
    let u := o.deliverAmid c g
    o.hub.live = some 1 ∧ o.hub.isWanted "%0" = true ∧ ¬ Accounted o u c g [] ∧
      u.hub.entries = [(1, [])] ∧ u.fallback = .recorded [] ∧
      u.hub.metrics.framesDropped = 0 := by
  intro o c g u
  obtain ⟨hl, hw, hgo, hn, hentries, hdropped⟩ : o.hub.live = some 1 ∧
      o.hub.isWanted "%0" = true ∧ (o.hub.isActive && o.hub.isWanted "%0") = true ∧
      (o.hub.run g.second).live = none ∧ (o.hub.run g.acts).entries = [(1, [])] ∧
      (o.hub.run g.acts).metrics.framesDropped = 0 := by
    decide +kernel
  have hu : u = { o with hub := o.hub.run g.acts } :=
    deliverAmid_of_nobody (by decide) hgo hn
  rw [hu]
  exact ⟨hl, hw, not_accounted rfl rfl, hentries, rfl, hdropped⟩

end Outlet

end PaneRelay.Hub
