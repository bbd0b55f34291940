import PaneRelay.Proofs.Hub.Order

/-! # Every chunk goes to one place

Whether a flush goes to the hub is decided in front of it, and the hub decides once more whether it
has anyone to send it to. The two agree in every state that a hub can be in: a chunk that the hub
was given is queued for the live consumer, or finds the queue full, is counted as dropped and costs
the consumer its connection; and all others are handed to the fallback.

* `framesDropped_act`: nothing but output is ever counted as dropped.
* `Place`, `placeOf`: where a chunk goes.
* `Outlet.Lands`, `Outlet.lands_deliver`: what a flush does to a hub and its fallback.
* `Outlet.places`: where the chunks of a run go.
* `Outlet.routing_accounts`: queues, fallback and counter hold what they say. -/

namespace PaneRelay.Hub

open Batcher (Chunk)
open Relay (frameOf)

/-! ### Nothing else is counted -/

/-- Whether an act is output. -/
def Act.isOutput : Act → Bool
  | .broadcast _ _ => true
  | _ => false

theorem Connection.framesDropped_written (m : Outgoing) (metrics : Metrics) :
    (written m metrics).framesDropped = metrics.framesDropped := by
  cases m <;> rfl

theorem Connection.framesDropped_expire (now : Nat) (c : Connection) (metrics : Metrics) :
    (c.expire now metrics).2.framesDropped = metrics.framesDropped := by
  unfold expire
  split
  · split <;> rfl
  · rfl
  · rfl

theorem Connection.framesDropped_drain (p : HubPolicy) (now : Nat) (ms : List Outgoing)
    (c : Connection) (metrics : Metrics) :
    (drain p now ms c metrics).2.framesDropped = metrics.framesDropped := by
  induction ms generalizing c metrics with
  | nil => rfl
  | cons m ms ih =>
    unfold drain
    simp only
    split
    · rw [ih, framesDropped_written]
    · rfl

theorem Connection.framesDropped_work (p : HubPolicy) (now : Nat) (c : Connection)
    (metrics : Metrics) : (c.work p now metrics).2.framesDropped = metrics.framesDropped := by
  unfold work
  split
  · rfl
  · split
    · exact framesDropped_drain _ _ _ _ _
    · split
      · rw [framesDropped_drain, framesDropped_written]
      · rfl
    · rfl

theorem framesDropped_serveAll (p : HubPolicy) (now : Nat) (cs : List Connection)
    (metrics : Metrics) : (serveAll p now cs metrics).2.framesDropped = metrics.framesDropped := by
  induction cs generalizing metrics with
  | nil => rfl
  | cons c cs ih =>
    unfold serveAll
    simp only
    rw [ih]
    unfold Connection.serve
    rw [Connection.framesDropped_work, Connection.framesDropped_expire]

theorem dropConnection_metrics (h : Hub) (id : Nat) (reason : String) :
    (h.dropConnection id reason).metrics = h.metrics := by
  by_cases hl : h.live = some id
  · exact (dropConnection_of_live hl reason).2.2.2
  · rw [dropConnection_of_ne hl]

theorem reap_metrics (h : Hub) : h.reap.metrics = h.metrics := by
  unfold reap
  split
  · rfl
  · split
    · rfl
    · split
      · exact dropConnection_metrics _ _ _
      · rfl

theorem framesDropped_receive (h : Hub) (id : Nat) (text : String) :
    (h.receive id text).metrics.framesDropped = h.metrics.framesDropped := by
  unfold receive
  split
  · rfl
  · split
    · unfold subscribe
      split
      · simp only
        split <;> rfl
      · rfl
    · unfold unsubscribe
      split
      · simp only
        split <;> rfl
      · rfl
    · rfl

/-- **Only output is ever counted as dropped.** -/
theorem framesDropped_act (h : Hub) {a : Act} (ha : a.isOutput = false) :
    (h.act a).metrics.framesDropped = h.metrics.framesDropped := by
  cases a with
  | broadcast p d => cases ha
  | attach now =>
    show (h.issue.2.attach _).metrics.framesDropped = _
    unfold attach
    cases h.issue.2.live <;> rfl
  | drop id reason => exact congrArg Metrics.framesDropped (dropConnection_metrics h id reason)
  | receive id text => exact framesDropped_receive h id text
  | serve now =>
    show (h.serve now).metrics.framesDropped = _
    unfold serve
    simp only
    rw [reap_metrics]
    exact framesDropped_serveAll _ _ _ _
  | beginStop =>
    show h.beginStop.metrics.framesDropped = _
    unfold beginStop
    simp only
    split
    · split
      · rw [dropConnection_metrics]
      · rfl
    · rfl
  | _ => rfl

/-! ### Where a chunk goes -/

/-- **A place for a chunk.** -/
inductive Place where
  /-- The queue of a connection. -/
  | queue (id : Nat)
  /-- The fallback. -/
  | fallback
  /-- None: the queue was full. -/
  | nowhere
deriving DecidableEq, Repr

/-- Where output of a pane goes. -/
def placeOf (h : Hub) (p : PaneId) : Place :=
  match h.live with
  | none => .fallback
  | some id => if h.isWanted p then if h.hasRoom id then .queue id else .nowhere else .fallback

theorem placeOf_queue {h : Hub} {p : PaneId} {id : Nat} : h.placeOf p = .queue id ↔
    h.live = some id ∧ h.isWanted p = true ∧ h.hasRoom id = true := by
  unfold placeOf
  cases h.live with
  | none => simp
  | some i =>
    cases h.isWanted p with
    | false => simp
    | true =>
      simp only [if_true, Option.some.injEq, true_and]
      constructor
      · intro he
        split at he
        · next hr =>
          cases he
          exact ⟨rfl, hr⟩
        · cases he
      · rintro ⟨rfl, hr⟩
        rw [if_pos hr]

theorem placeOf_fallback {h : Hub} {p : PaneId} :
    h.placeOf p = .fallback ↔ h.live = none ∨ h.isWanted p = false := by
  unfold placeOf
  cases h.live with
  | none => simp
  | some i =>
    cases h.isWanted p with
    | false => simp
    | true =>
      simp only [if_true]
      split <;> simp

theorem placeOf_nowhere {h : Hub} {p : PaneId} : h.placeOf p = .nowhere ↔
    ∃ id, h.live = some id ∧ h.isWanted p = true ∧ h.hasRoom id = false := by
  unfold placeOf
  cases h.live with
  | none => simp
  | some i =>
    cases h.isWanted p with
    | false => simp
    | true => cases h.hasRoom i <;> simp

/-- The route agrees that there is a consumer for it. -/
theorem isActive_and_isWanted {h : Hub} {id : Nat} {p : PaneId} (hl : h.live = some id)
    (hw : h.isWanted p = true) : (h.isActive && h.isWanted p) = true := by
  unfold isActive
  rw [hl, hw]
  rfl

namespace Outlet

/-- **A chunk lands in a place, and in no other.** -/
structure Lands (o o' : Outlet) (c : Chunk) (x : Place) : Prop where
  frames : ∀ id, o'.hub.framesOf id =
    o.hub.framesOf id ++ if x = .queue id then [frameOf c] else []
  fallback : o'.fallback =
    if x = .fallback then o.fallback.deliver c.pane c.data else o.fallback
  dropped : o'.hub.metrics.framesDropped =
    o.hub.metrics.framesDropped + if x = .nowhere then 1 else 0
  live : if x = .nowhere then o'.hub.live = none ∧ o'.hub.wanted = []
    else o'.hub.live = o.hub.live ∧ o'.hub.wanted = o.hub.wanted

/-- **A flush.** -/
theorem lands_deliver {acts : List Act} {o : Outlet} (hb : Booked acts o.hub) {c : Chunk}
    (hc : c.data.isEmpty = false) :
    Lands o (o.deliver c.pane c.data) c (o.hub.placeOf c.pane) := by
  unfold deliver
  rw [if_neg (by simp [hc])]
  cases hx : o.hub.placeOf c.pane with
  | fallback =>
    have hnot : (o.hub.isActive && o.hub.isWanted c.pane) = false := by
      unfold isActive
      rcases placeOf_fallback.mp hx with hl | hw
      · rw [hl]
        rfl
      · rw [hw, Bool.and_false]
    rw [hnot]
    exact ⟨by simp, rfl, by simp, by simp⟩
  | queue id =>
    obtain ⟨hl, hw, hr⟩ := placeOf_queue.mp hx
    have hcon : o.hub.Concerns id c.pane c.data := ⟨hc, hl, hw⟩
    rw [isActive_and_isWanted hl hw, if_pos rfl]
    obtain ⟨hframes, -, connections, he⟩ := broadcast_of_room hcon hr
    refine ⟨fun i => ?_, by simp, ?_, ?_⟩
    · rw [hframes i]
      by_cases hi : i = id
      · subst hi
        rw [if_pos rfl, if_pos rfl]
        rfl
      · rw [if_neg hi, if_neg (by simpa using Ne.symm hi), List.append_nil]
    · simp [he]
    · simp [he]
  | nowhere =>
    obtain ⟨id, hl, hw, hr⟩ := placeOf_nowhere.mp hx
    have hcon : o.hub.Concerns id c.pane c.data := ⟨hc, hl, hw⟩
    rw [isActive_and_isWanted hl hw, if_pos rfl]
    have hfull := broadcast_of_full hcon (hb.connection? hl) hr
    obtain ⟨-, hlive, hwanted, hmetrics⟩ := dropConnection_of_live
      (h := { o.hub with metrics := o.hub.metrics.dropped }) hl fullReason
    refine ⟨fun i => ?_, by simp, ?_, ?_⟩
    · have hsame := (broadcast_of_full_calm hcon (hb.connection? hl) hr).same
      simpa using hsame.framesOf i
    · rw [if_pos rfl, hfull, hmetrics]
      rfl
    · rw [if_pos rfl, hfull]
      exact ⟨hlive, hwanted⟩

/-! ### Runs -/

/-- **What happens to a hub and its fallback:** a flush, or something that happens to the hub. -/
inductive Turn where
  /-- A flush. -/
  | deliver (c : Chunk)
  /-- An act of the hub. -/
  | hub (a : Act)

/-- The chunk that is flushed, if one is. -/
def Turn.chunk? : Turn → Option Chunk
  | .deliver c => some c
  | .hub _ => none

/-- The state after a turn. -/
def turn (o : Outlet) : Turn → Outlet
  | .deliver c => o.deliver c.pane c.data
  | .hub a => { o with hub := o.hub.act a }

/-- **The state after a run.** -/
def played (o : Outlet) (ts : List Turn) : Outlet := ts.foldl turn o

/-- **Where the chunks of a run go**, those without bytes apart. -/
def places (o : Outlet) : List Turn → List (Chunk × Place)
  | [] => []
  | .hub a :: ts => (o.turn (.hub a)).places ts
  | .deliver c :: ts =>
    (if c.data.isEmpty then [] else [(c, o.hub.placeOf c.pane)]) ++ (o.turn (.deliver c)).places ts

/-- The chunks that go to a place, oldest first. -/
def sentTo (x : Place) (l : List (Chunk × Place)) : List Chunk :=
  (l.filter fun e => e.2 = x).map Prod.fst

theorem sentTo_cons (x : Place) (c : Chunk) (y : Place) (l : List (Chunk × Place)) :
    sentTo x ((c, y) :: l) = (if y = x then [c] else []) ++ sentTo x l := by
  unfold sentTo
  by_cases h : y = x
  · rw [List.filter_cons_of_pos (by simpa using h), if_pos h]
    rfl
  · rw [List.filter_cons_of_neg (by simpa using h), if_neg h]
    rfl

/-- **Every chunk with bytes goes to one place.** -/
theorem places_chunks (o : Outlet) (ts : List Turn) :
    (o.places ts).map Prod.fst =
      (ts.filterMap Turn.chunk?).filter fun c => !c.data.isEmpty := by
  induction ts generalizing o with
  | nil => rfl
  | cons t ts ih =>
    cases t with
    | hub a => exact ih _
    | deliver c =>
      have hcons : (Turn.deliver c :: ts).filterMap Turn.chunk? =
          c :: ts.filterMap Turn.chunk? := rfl
      unfold places
      rw [List.map_append, ih, hcons]
      cases hc : c.data.isEmpty <;> simp [hc]

/-- **What a run leaves behind** is what its chunks come to, place by place. -/
structure Tallied (o u : Outlet) (l : List (Chunk × Place)) : Prop where
  frames : ∀ id, u.hub.framesOf id = o.hub.framesOf id ++ (sentTo (.queue id) l).map frameOf
  fallback : u.fallback =
    (sentTo .fallback l).foldl (fun f c => f.deliver c.pane c.data) o.fallback
  dropped : u.hub.metrics.framesDropped =
    o.hub.metrics.framesDropped + UInt64.ofNat (sentTo .nowhere l).length

theorem Tallied.refl (o : Outlet) : Tallied o o [] :=
  ⟨fun _ => (List.append_nil _).symm, rfl, (UInt64.add_zero _).symm⟩

/-- One chunk before others. -/
theorem Tallied.cons {o o' u : Outlet} {c : Chunk} {x : Place} {l : List (Chunk × Place)}
    (h : Lands o o' c x) (t : Tallied o' u l) : Tallied o u ((c, x) :: l) where
  frames id := by
    rw [t.frames, h.frames, sentTo_cons, List.map_append, List.append_assoc]
    split <;> rfl
  fallback := by
    rw [t.fallback, h.fallback, sentTo_cons, List.foldl_append]
    split <;> rfl
  dropped := by
    rw [t.dropped, h.dropped, sentTo_cons, List.length_append, UInt64.ofNat_add, UInt64.add_assoc]
    split <;> rfl

/-- Something before it that touches none of this. -/
theorem Tallied.after {o o' u : Outlet} {l : List (Chunk × Place)} (t : Tallied o' u l)
    (hf : ∀ id, o'.hub.framesOf id = o.hub.framesOf id) (hk : o'.fallback = o.fallback)
    (hd : o'.hub.metrics.framesDropped = o.hub.metrics.framesDropped) : Tallied o u l :=
  ⟨fun id => by rw [t.frames, hf], by rw [t.fallback, hk], by rw [t.dropped, hd]⟩

/-- Nothing but output is queued as a frame. -/
theorem framesOf_act_of_not {policy : HubPolicy} {acts : List Act} {a : Act}
    (ha : a.isOutput = false) (id : Nat) :
    (((fresh policy).run acts).act a).framesOf id = ((fresh policy).run acts).framesOf id := by
  rw [framesOf_act]
  cases a with
  | broadcast p d => cases ha
  | _ => exact List.append_nil _

/-- **A run.** -/
theorem tallied_played {policy : HubPolicy} {o : Outlet} {acts : List Act} {ts : List Turn}
    (ho : o.hub = (fresh policy).run acts) (hts : ∀ a, .hub a ∈ ts → a.isOutput = false) :
    Tallied o (o.played ts) (o.places ts) ∧
      ∃ acts', (o.played ts).hub = (fresh policy).run acts' := by
  induction ts generalizing o acts with
  | nil => exact ⟨.refl o, acts, ho⟩
  | cons t ts ih =>
    have hts' : ∀ a, .hub a ∈ ts → a.isOutput = false := fun a ha =>
      hts a (List.mem_cons_of_mem _ ha)
    cases t with
    | hub a =>
      have ha : a.isOutput = false := hts a List.mem_cons_self
      have ho' : (o.turn (.hub a)).hub = (fresh policy).run (acts ++ [a]) := by
        rw [run_append, ← ho]
        rfl
      obtain ⟨htally, hrun⟩ := ih ho' hts'
      refine ⟨htally.after (fun id => ?_) rfl ?_, hrun⟩
      · show (o.hub.act a).framesOf id = _
        rw [ho]
        exact framesOf_act_of_not ha id
      · exact framesDropped_act o.hub ha
    | deliver c =>
      obtain ⟨acts', ho'⟩ : ∃ acts', (o.turn (.deliver c)).hub = (fresh policy).run acts' := by
        show ∃ acts', (o.deliver c.pane c.data).hub = _
        unfold deliver
        split
        · exact ⟨acts, ho⟩
        · split
          · refine ⟨acts ++ [.broadcast c.pane c.data], ?_⟩
            rw [run_append, ← ho]
            rfl
          · exact ⟨acts, ho⟩
      obtain ⟨htally, hrun⟩ := ih ho' hts'
      refine ⟨?_, hrun⟩
      unfold places
      cases hc : c.data.isEmpty with
      | true =>
        have he : o.turn (.deliver c) = o := if_pos hc
        rw [if_pos rfl, List.nil_append, he]
        show Tallied o ((o.turn (.deliver c)).played ts) _
        rw [he]
        rwa [he] at htally
      | false => exact .cons (lands_deliver (ho ▸ booked_run policy acts) hc) htally

/-- A fallback that records holds what it was handed, in order. -/
theorem foldl_recorded (chunks : List (PaneId × ByteArray)) (l : List Chunk) :
    l.foldl (fun f c => f.deliver c.pane c.data) (Fallback.recorded chunks) =
      .recorded (chunks ++ l.map fun c => (c.pane, c.data)) := by
  induction l generalizing chunks with
  | nil =>
    rw [List.map_nil, List.append_nil]
    rfl
  | cons c l ih =>
    rw [List.foldl_cons, List.map_cons, List.append_cons]
    exact ih _

/-! ### The account -/

/-- **Routing accounts for every chunk.** A hub starts with any fallback; flushes fall between
whatever else happens to the hub, output by other ways apart. Each chunk with bytes goes to one
place. The frames of a connection are those of the chunks that went to its queue; the fallback was
handed the chunks that went to it, as they were and in order, and no others; and as many frames are
counted as dropped as there are chunks that went nowhere. In the state that is reached, as in every
one before, a chunk goes to the fallback if and only if nobody is live or its pane is not asked for,
and nowhere if and only if somebody is live and asks for it and the queue is full, and then that
consumer is live no more. -/
theorem routing_accounts (policy : HubPolicy) (f : Fallback) {ts : List Turn}
    (hts : ∀ a, .hub a ∈ ts → a.isOutput = false) :
    let o : Outlet := ⟨fresh policy, f⟩
    let u := o.played ts
    (o.places ts).map Prod.fst = (ts.filterMap Turn.chunk?).filter (fun c => !c.data.isEmpty) ∧
    (∀ id, u.hub.framesOf id = (sentTo (.queue id) (o.places ts)).map frameOf) ∧
    u.fallback =
      (sentTo .fallback (o.places ts)).foldl (fun f c => f.deliver c.pane c.data) f ∧
    u.hub.metrics.framesDropped = UInt64.ofNat (sentTo .nowhere (o.places ts)).length ∧
    ∀ c, c.data.isEmpty = false →
      Lands u (u.turn (.deliver c)) c (u.hub.placeOf c.pane) ∧
      (u.hub.placeOf c.pane = .fallback ↔ u.hub.live = none ∨ u.hub.isWanted c.pane = false) ∧
      (u.hub.placeOf c.pane = .nowhere ↔
        ∃ id, u.hub.live = some id ∧ u.hub.isWanted c.pane = true ∧ u.hub.hasRoom id = false) := by
  intro o u
  obtain ⟨htally, acts, hrun⟩ := tallied_played (show o.hub = (fresh policy).run [] from rfl) hts
  refine ⟨places_chunks o ts, fun id => htally.frames id, htally.fallback, ?_, fun c hc => ?_⟩
  · exact htally.dropped.trans (UInt64.zero_add _)
  · have hb : Booked acts u.hub := by
      rw [show u.hub = (fresh policy).run acts from hrun]
      exact booked_run policy acts
    exact ⟨lands_deliver hb hc, placeOf_fallback, placeOf_nowhere⟩

/-- A consumer asks for a pane, and its queue of one frame fills up. -/
theorem routing_accounts_overflow :
    let ts : List Turn := [.deliver ⟨"%0", "early".toUTF8⟩, .hub (.attach 0),
      .hub (.receive 1 "\x7b\"action\":\"subscribe\",\"paneIds\":[\"%0\"]\x7d"),
      .deliver ⟨"%0", "one".toUTF8⟩, .deliver ⟨"%0", "two".toUTF8⟩,
      .deliver ⟨"%0", "late".toUTF8⟩]
    let u := (⟨fresh Relay.narrow, .recorded []⟩ : Outlet).played ts
    u.hub.framesOf 1 = [Frame.encode "%0" "one".toUTF8] ∧
      u.fallback = .recorded [("%0", "early".toUTF8), ("%0", "late".toUTF8)] ∧
      u.hub.metrics.framesDropped = 1 := by
  intro ts u
  obtain ⟨hqueue, hkept, hnowhere⟩ :
      (sentTo (.queue 1) ((⟨fresh Relay.narrow, .recorded []⟩ : Outlet).places ts)).map frameOf =
        [Frame.encode "%0" "one".toUTF8] ∧
      (sentTo .fallback ((⟨fresh Relay.narrow, .recorded []⟩ : Outlet).places ts)).map
        (fun c => (c.pane, c.data)) = [("%0", "early".toUTF8), ("%0", "late".toUTF8)] ∧
      (sentTo .nowhere ((⟨fresh Relay.narrow, .recorded []⟩ : Outlet).places ts)).length = 1 := by
    decide +kernel
  have hts : ∀ a, .hub a ∈ ts → a.isOutput = false := by
    simp [ts, Act.isOutput]
  obtain ⟨-, hframes, hfallback, hdropped, -⟩ :=
    routing_accounts Relay.narrow (.recorded []) hts
  rw [hnowhere] at hdropped
  refine ⟨(hframes 1).trans hqueue, ?_, hdropped⟩
  rw [hfallback, foldl_recorded, hkept, List.nil_append]

end Outlet

end PaneRelay.Hub
