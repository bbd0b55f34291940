import PaneRelay.Hub.Basic

/-! # Runs of a hub

Consumers come, go and speak, output arrives, and the loops of the connections work, in any order. A
run is a list of such acts. Most of them leave alone which numbers the connections have and which
frames were ever queued for each: that is `Same`, and an act is described by it and by what it does
to the live consumer and the panes asked for.

* `Act`, `Hub.act`, `Hub.run`: what can happen to a hub.
* `framesOf`: the frames ever placed in a connection's queue.
* `Same`: the connections keep their numbers and their frames.
* `attach_framesOf`, `dropConnection_cases`, `broadcast_cases`: what the operations do. -/

namespace PaneRelay.Hub

/-- **What can happen to a hub.** -/
inductive Act where
  /-- A consumer gets a number and becomes live. -/
  | attach (now : Nat)
  /-- A connection is torn down, if it is live. -/
  | drop (id : Nat) (reason : String)
  /-- A text arrives on a connection, which may be live or not. -/
  | receive (id : Nat) (text : String)
  /-- Output of a pane. -/
  | broadcast (p : PaneId) (data : ByteArray)
  /-- The writer of a connection takes the oldest message. -/
  | take (id : Nat)
  /-- Anything else that happens to a connection, its number and its queue apart. -/
  | adjust (id : Nat) (f : Connection → Connection)
  /-- The work of all connections at a moment. -/
  | serve (now : Nat)
  /-- The hub is started, given what binding the port comes to. -/
  | start (bound : Except String Unit)
  /-- The hub begins to stop. -/
  | beginStop
  /-- A stop ends. -/
  | finishStop
  /-- The token of the hub fires. -/
  | cancel

/-- Whether an act lets a consumer in. -/
def Act.isAttach : Act → Bool
  | .attach _ => true
  | _ => false

/-- The writer takes the oldest message, if there is one. -/
def Connection.takeNext (c : Connection) : Connection :=
  if c.outbox.waiting.isEmpty then c else { c with outbox := c.outbox.next }

/-- A connection after a change that its number and its queue are not part of. -/
def Connection.adjust (f : Connection → Connection) (c : Connection) : Connection :=
  { f c with id := c.id, outbox := c.outbox }

/-- A hub that was not used yet. -/
def fresh (policy : HubPolicy) : Hub := { policy }

/-- The state after an act. -/
def act (h : Hub) : Act → Hub
  | .attach now => h.issue.2.attach (.fresh h.policy h.issue.1 now)
  | .drop id reason => h.dropConnection id reason
  | .receive id text => h.receive id text
  | .broadcast p data => h.broadcast p data
  | .take id => h.modify id Connection.takeNext
  | .adjust id f => h.modify id (Connection.adjust f)
  | .serve now => h.serve now
  | .start bound => (h.start bound).2
  | .beginStop => h.beginStop
  | .finishStop => h.finishStop
  | .cancel => h.cancel

/-- **The state after a run.** -/
def run (h : Hub) (acts : List Act) : Hub := acts.foldl act h

@[simp] theorem run_nil (h : Hub) : h.run [] = h := rfl

@[simp] theorem run_cons (h : Hub) (a : Act) (acts : List Act) :
    h.run (a :: acts) = (h.act a).run acts := rfl

theorem run_append (h : Hub) (as bs : List Act) : h.run (as ++ bs) = (h.run as).run bs :=
  List.foldl_append

/-- **What holds of each entry of a history and those before it**, still does with one more. -/
theorem forall_prefix_concat {α : Type} {P : List α → α → Prop} {l : List α} {a : α}
    (h : ∀ past b, past ++ [b] <+: l → P past b) (ha : P l a) :
    ∀ past b, past ++ [b] <+: l ++ [a] → P past b := by
  intro past b hp
  rcases List.prefix_concat_iff.mp hp with he | hp
  · obtain ⟨rfl, hb⟩ := List.append_inj' he rfl
    rwa [List.singleton_inj.mp hb]
  · exact h past b hp

/-! ### Queues -/

/-- The frame in a message, if it carries one. -/
def Outgoing.frame? : Outgoing → Option ByteArray
  | .frame bytes _ => some bytes
  | _ => none

/-- The frames among the messages ever queued. -/
def Outbox.frames (o : Outbox) : List ByteArray := o.log.filterMap Outgoing.frame?

theorem Outbox.put_of_room {o : Outbox} {n : Nat} (h : o.hasRoom n = true) (m : Outgoing) :
    o.put n m = some { o with log := o.log ++ [m] } := if_pos h

theorem Outbox.put_of_full {o : Outbox} {n : Nat} (h : o.hasRoom n = false) (m : Outgoing) :
    o.put n m = none := if_neg (by simp [h])

theorem Outbox.frames_put {o o' : Outbox} {n : Nat} {m : Outgoing} (h : o.put n m = some o') :
    o'.frames = o.frames ++ m.frame?.toList := by
  unfold put at h
  split at h
  · cases h
    unfold frames
    rw [List.filterMap_append]
    cases m <;> rfl
  · cases h

theorem Outbox.frames_offer (o : Outbox) (n : Nat) {m : Outgoing} (hm : m.frame? = none) :
    (o.offer n m).frames = o.frames := by
  unfold offer
  cases h : o.put n m with
  | none => rfl
  | some o' => rw [Option.getD_some, frames_put h, hm, Option.toList_none, List.append_nil]

/-- What is booked for a connection: its number and the frames ever queued for it. -/
def Connection.entry (c : Connection) : Nat × List ByteArray := (c.id, c.outbox.frames)

theorem Connection.entry_takeNext (c : Connection) : c.takeNext.entry = c.entry := by
  unfold takeNext
  split <;> rfl

theorem Connection.entry_deliver (now : Nat) (m : Outgoing) (c : Connection) :
    (c.deliver now m).entry = c.entry := by
  cases m with
  | ping =>
    show (if _ then c.hear now else c).entry = c.entry
    split <;> rfl
  | _ => rfl

theorem Connection.entry_expire (now : Nat) (c : Connection) (metrics : Metrics) :
    (c.expire now metrics).1.entry = c.entry := by
  unfold expire
  split
  · split <;> rfl
  · split <;> rfl
  · rfl

theorem Connection.entry_keepAlive (p : HubPolicy) (now : Nat) (c : Connection) :
    (c.keepAlive p now).entry = c.entry := by
  unfold keepAlive beat
  simp only
  split
  · split
    · rfl
    · simp only [entry, Outbox.frames_offer _ _ (rfl : Outgoing.ping.frame? = none)]
  · rfl

theorem Connection.entry_drain (p : HubPolicy) (now : Nat) (ms : List Outgoing) (c : Connection)
    (metrics : Metrics) : (drain p now ms c metrics).1.entry = c.entry := by
  induction ms generalizing c metrics with
  | nil => rfl
  | cons m ms ih =>
    unfold drain
    simp only
    split
    · rw [ih, entry_deliver]
      rfl
    · rfl

theorem Connection.entry_windDown (p : HubPolicy) (now : Nat) (c : Connection) :
    (c.windDown p now).entry = c.entry := by
  have hclose : ∀ c : Connection, c.close.entry = c.entry := fun _ => rfl
  unfold windDown
  split
  · split <;> rfl
  · split
    · rw [hclose, entry_deliver]
    · rfl
  · split
    · split <;> rfl
    · split
      · rw [hclose, entry_deliver]
      · rfl
  · rfl

theorem Connection.entry_work (p : HubPolicy) (now : Nat) (c : Connection) (metrics : Metrics) :
    (c.work p now metrics).1.entry = c.entry := by
  unfold work
  split
  · exact entry_windDown p now c
  · split
    · exact entry_drain p now _ c metrics
    · split
      · rw [entry_drain]
        exact entry_deliver now _ c
      · rfl
    · rfl

/-- **The loops of a connection** queue no frame. -/
theorem Connection.entry_serve (p : HubPolicy) (now : Nat) (c : Connection) (metrics : Metrics) :
    (c.serve p now metrics).1.entry = c.entry := by
  unfold serve
  rw [entry_work, entry_keepAlive, entry_expire]

/-! ### Connections by number -/

theorem connection?_modify {f : Connection → Connection} (hf : ∀ c, (f c).id = c.id) (h : Hub)
    (i id : Nat) :
    (h.modify i f).connection? id =
      if id = i then (h.connection? id).map f else h.connection? id := by
  unfold modify connection?
  generalize h.connections = l
  induction l with
  | nil => simp
  | cons c l ih =>
    have hid : (if c.id = i then f c else c).id = c.id := by split <;> simp [hf]
    rw [List.map_cons, List.find?_cons, List.find?_cons, hid]
    cases hc : c.id == id with
    | false => exact ih
    | true =>
      have hc : c.id = id := by simpa using hc
      by_cases hi : id = i
      · rw [if_pos hi, if_pos (hc.trans hi)]
        rfl
      · rw [if_neg hi, if_neg (fun he => hi (hc.symm.trans he))]

/-- **The frames ever placed in the queue of a connection**, oldest first. -/
def framesOf (h : Hub) (id : Nat) : List ByteArray :=
  ((h.connection? id).map fun c => c.outbox.frames).getD []

/-- Whether the queue of a connection has room for a message. -/
def hasRoom (h : Hub) (id : Nat) : Bool :=
  ((h.connection? id).map fun c => c.outbox.hasRoom h.policy.sendQueueCapacity).getD false

theorem hasRoom_eq {h : Hub} {id : Nat} {c : Connection} (hc : h.connection? id = some c) :
    h.hasRoom id = c.outbox.hasRoom h.policy.sendQueueCapacity := by
  unfold hasRoom
  rw [hc]
  rfl

/-- A queue takes the place of another one. -/
theorem framesOf_outbox {h : Hub} {id : Nat} {c : Connection} (hc : h.connection? id = some c)
    (outbox : Outbox) (i : Nat) :
    (h.modify id fun c => { c with outbox }).framesOf i =
      if i = id then outbox.frames else h.framesOf i := by
  unfold framesOf
  rw [connection?_modify (f := fun c => { c with outbox }) (fun _ => rfl)]
  by_cases hi : i = id
  · rw [if_pos hi, if_pos hi, hi, hc]
    rfl
  · rw [if_neg hi, if_neg hi]

/-- What is booked for all connections, oldest first. -/
def entries (h : Hub) : List (Nat × List ByteArray) := h.connections.map Connection.entry

/-- The numbers of all connections, oldest first. -/
def numbers (h : Hub) : List Nat := h.connections.map Connection.id

theorem numbers_eq (h : Hub) : h.numbers = h.entries.map Prod.fst := by
  unfold numbers entries
  rw [List.map_map]
  rfl

theorem numbers_modify {f : Connection → Connection} (hf : ∀ c, (f c).id = c.id) (h : Hub)
    (i : Nat) : (h.modify i f).numbers = h.numbers := by
  unfold numbers modify
  rw [List.map_map]
  refine List.map_congr_left fun c _ => ?_
  rw [Function.comp_apply]
  split
  · exact hf c
  · rfl

theorem connection?_isSome (h : Hub) (id : Nat) : (h.connection? id).isSome = true ↔ id ∈ h.numbers := by
  unfold connection? numbers
  simp only [List.find?_isSome, beq_iff_eq, List.mem_map]

theorem framesOf_eq (h : Hub) (id : Nat) : h.framesOf id = (h.entries.lookup id).getD [] := by
  unfold framesOf connection? entries
  generalize h.connections = l
  induction l with
  | nil => rfl
  | cons c l ih =>
    rw [List.find?_cons, List.map_cons, Connection.entry, List.lookup_cons, BEq.comm]
    cases id == c.id with
    | true => rfl
    | false => exact ih

theorem entries_modify {f : Connection → Connection} (hf : ∀ c, (f c).entry = c.entry) (h : Hub)
    (i : Nat) : (h.modify i f).entries = h.entries := by
  unfold entries modify
  rw [List.map_map]
  refine List.map_congr_left fun c _ => ?_
  rw [Function.comp_apply]
  split
  · exact hf c
  · rfl

/-! ### What stays -/

/-- **The books stay:** the same connections, and for each the same frames. -/
structure Same (h h' : Hub) : Prop where
  policy : h'.policy = h.policy
  issued : h'.issued = h.issued
  entries : h'.entries = h.entries

theorem Same.refl (h : Hub) : Same h h := ⟨rfl, rfl, rfl⟩

theorem Same.trans {h h' h'' : Hub} (a : Same h h') (b : Same h' h'') : Same h h'' :=
  ⟨b.policy.trans a.policy, b.issued.trans a.issued, b.entries.trans a.entries⟩

theorem Same.framesOf {h h' : Hub} (s : Same h h') (id : Nat) : h'.framesOf id = h.framesOf id := by
  rw [framesOf_eq, framesOf_eq, s.entries]

theorem Same.numbers {h h' : Hub} (s : Same h h') : h'.numbers = h.numbers := by
  rw [numbers_eq, numbers_eq, s.entries]

theorem same_modify {f : Connection → Connection} (hf : ∀ c, (f c).entry = c.entry) (h : Hub)
    (i : Nat) : Same h (h.modify i f) := ⟨rfl, rfl, entries_modify hf h i⟩

/-- **The books stay, and the consumer with its panes stays or goes.** -/
structure Calm (h h' : Hub) : Prop where
  same : Same h h'
  live : h'.live = h.live ∧ h'.wanted = h.wanted ∨ h'.live = none ∧ h'.wanted = []

theorem Same.calm {h h' : Hub} (s : Same h h') (hl : h'.live = h.live) (hw : h'.wanted = h.wanted) :
    Calm h h' := ⟨s, .inl ⟨hl, hw⟩⟩

theorem Calm.after {h h' h'' : Hub} (c : Calm h' h'') (s : Same h h') (hl : h'.live = h.live)
    (hw : h'.wanted = h.wanted) : Calm h h'' := by
  refine ⟨s.trans c.same, ?_⟩
  rw [← hl, ← hw]
  exact c.live

theorem dropConnection_of_ne {h : Hub} {id : Nat} (hl : h.live ≠ some id) (reason : String) :
    h.dropConnection id reason = h := if_neg hl

/-- **The live consumer is torn down.** -/
theorem dropConnection_of_live {h : Hub} {id : Nat} (hl : h.live = some id) (reason : String) :
    Same h (h.dropConnection id reason) ∧ (h.dropConnection id reason).live = none ∧
      (h.dropConnection id reason).wanted = [] ∧
      (h.dropConnection id reason).metrics = h.metrics := by
  unfold dropConnection
  rw [if_pos hl]
  exact ⟨⟨rfl, rfl, entries_modify (f := Connection.cancel) (fun _ => rfl) h id⟩, rfl, rfl, rfl⟩

/-- A teardown touches no queue. -/
theorem dropConnection_outbox (h : Hub) (id : Nat) (reason : String) (i : Nat) :
    ((h.dropConnection id reason).connection? i).map Connection.outbox =
      (h.connection? i).map Connection.outbox := by
  unfold dropConnection
  split
  · show ((h.modify id Connection.cancel).connection? i).map Connection.outbox = _
    rw [connection?_modify (f := Connection.cancel) (fun _ => rfl)]
    split
    · cases h.connection? i <;> rfl
    · rfl
  · rfl

theorem dropConnection_calm (h : Hub) (id : Nat) (reason : String) :
    Calm h (h.dropConnection id reason) := by
  by_cases hl : h.live = some id
  · obtain ⟨hs, hn, hw, -⟩ := dropConnection_of_live hl reason
    exact ⟨hs, .inr ⟨hn, hw⟩⟩
  · rw [dropConnection_of_ne hl]
    exact (Same.refl h).calm rfl rfl

theorem entries_serveAll (p : HubPolicy) (now : Nat) (cs : List Connection) (metrics : Metrics) :
    (serveAll p now cs metrics).1.map Connection.entry = cs.map Connection.entry := by
  induction cs generalizing metrics with
  | nil => rfl
  | cons c cs ih =>
    unfold serveAll
    simp only [List.map_cons]
    rw [ih, Connection.entry_serve]

theorem reap_calm (h : Hub) : Calm h h.reap := by
  unfold reap
  split
  · exact (Same.refl h).calm rfl rfl
  · split
    · exact (Same.refl h).calm rfl rfl
    · split
      · exact dropConnection_calm h _ _
      · exact (Same.refl h).calm rfl rfl

theorem serve_calm (h : Hub) (now : Nat) : Calm h (h.serve now) := by
  refine (reap_calm _).after ⟨rfl, rfl, ?_⟩ rfl rfl
  exact entries_serveAll h.policy now h.connections h.metrics

theorem beginStop_calm (h : Hub) : Calm h h.beginStop := by
  unfold beginStop
  simp only
  split
  · split
    · exact (dropConnection_calm _ _ _).after ⟨rfl, rfl, rfl⟩ rfl rfl
    · exact ⟨⟨rfl, rfl, rfl⟩, .inl ⟨rfl, rfl⟩⟩
  · exact ⟨⟨rfl, rfl, rfl⟩, .inl ⟨rfl, rfl⟩⟩

theorem cancel_calm (h : Hub) : Calm h h.cancel := by
  refine ⟨⟨rfl, rfl, ?_⟩, .inl ⟨rfl, rfl⟩⟩
  unfold cancel entries
  simp only [List.map_map]
  refine List.map_congr_left fun c _ => ?_
  rw [Function.comp_apply]
  split <;> rfl

/-! ### What the other acts do -/

theorem attach_entries (h : Hub) (c : Connection) : (h.attach c).entries = h.entries ++ [c.entry] := by
  unfold attach
  cases h.live with
  | none => simp [entries, note]
  | some id =>
    have he := entries_modify (f := Connection.cancel) (fun _ => rfl) h id
    unfold entries at he ⊢
    simp only [note, List.map_append, he, List.map_cons, List.map_nil]

theorem attach_numbers (h : Hub) (c : Connection) : (h.attach c).numbers = h.numbers ++ [c.id] := by
  rw [numbers_eq, attach_entries, List.map_append, ← numbers_eq]
  rfl

theorem attach_fields (h : Hub) (c : Connection) : (h.attach c).live = some c.id ∧
    (h.attach c).wanted = [] ∧ (h.attach c).issued = h.issued ∧ (h.attach c).policy = h.policy := by
  unfold attach
  cases h.live <;> exact ⟨rfl, rfl, rfl, rfl⟩

theorem mem_addAll {p : PaneId} (w ps : List PaneId) : p ∈ (addAll w ps).1 ↔ p ∈ w ∨ p ∈ ps := by
  induction ps generalizing w with
  | nil => simp [addAll]
  | cons q ps ih =>
    unfold addAll
    split
    · next hq =>
      have hq : q ∈ w := by simpa using hq
      rw [ih, List.mem_cons]
      constructor
      · rintro (h | h)
        · exact .inl h
        · exact .inr (.inr h)
      · rintro (h | rfl | h)
        · exact .inl h
        · exact .inl hq
        · exact .inr h
    · simp only [ih, List.mem_append, List.mem_cons, List.not_mem_nil, or_false, or_assoc]

theorem addAll_of_isEmpty {w ps : List PaneId} (h : (addAll w ps).2.isEmpty = true) :
    (addAll w ps).1 = w := by
  induction ps generalizing w with
  | nil => rfl
  | cons q ps ih =>
    unfold addAll at h ⊢
    split
    · next hq =>
      rw [if_pos hq] at h
      exact ih h
    · next hq =>
      rw [if_neg hq] at h
      cases h

theorem mem_removeAll {p : PaneId} (w ps : List PaneId) :
    p ∈ (removeAll w ps).1 ↔ p ∈ w ∧ p ∉ ps := by
  induction ps generalizing w with
  | nil => simp [removeAll]
  | cons q ps ih =>
    unfold removeAll
    split
    · simp only [ih, List.mem_filter, bne_iff_ne, ne_eq, List.mem_cons, not_or, and_assoc]
    · next hq =>
      have hq : q ∉ w := by simpa using hq
      rw [ih, List.mem_cons, not_or]
      constructor
      · rintro ⟨h1, h2⟩
        refine ⟨h1, ?_, h2⟩
        rintro rfl
        exact hq h1
      · rintro ⟨h1, -, h2⟩
        exact ⟨h1, h2⟩

theorem removeAll_of_isEmpty {w ps : List PaneId} (h : (removeAll w ps).2.isEmpty = true) :
    (removeAll w ps).1 = w := by
  induction ps generalizing w with
  | nil => rfl
  | cons q ps ih =>
    unfold removeAll at h ⊢
    split
    · next hq =>
      rw [if_pos hq] at h
      cases h
    · next hq =>
      rw [if_neg hq] at h
      exact ih h

theorem subscribe_eq {h : Hub} {id : Nat} (hl : h.live = some id) (ids : List PaneId) :
    h.subscribe id ids = if (addAll h.wanted ids).2.isEmpty then h
      else { h with wanted := (addAll h.wanted ids).1 }.note (.subscribed (addAll h.wanted ids).2) := by
  unfold subscribe
  rw [if_pos hl]

theorem unsubscribe_eq {h : Hub} {id : Nat} (hl : h.live = some id) (ids : List PaneId) :
    h.unsubscribe id ids = if (removeAll h.wanted ids).2.isEmpty then h
      else { h with wanted := (removeAll h.wanted ids).1 }.note
        (.unsubscribed (removeAll h.wanted ids).2) := by
  unfold unsubscribe
  rw [if_pos hl]

theorem subscribe_of_ne {h : Hub} {id : Nat} (hl : h.live ≠ some id) (ids : List PaneId) :
    h.subscribe id ids = h := if_neg hl

theorem unsubscribe_of_ne {h : Hub} {id : Nat} (hl : h.live ≠ some id) (ids : List PaneId) :
    h.unsubscribe id ids = h := if_neg hl

/-- A wish changes the table and the journal at most. -/
theorem subscribe_fields (h : Hub) (id : Nat) (ids : List PaneId) :
    ∃ wanted journal, h.subscribe id ids = { h with wanted, journal } := by
  by_cases hl : h.live = some id
  · rw [subscribe_eq hl]
    split
    · exact ⟨h.wanted, h.journal, rfl⟩
    · exact ⟨_, _, rfl⟩
  · rw [subscribe_of_ne hl]
    exact ⟨h.wanted, h.journal, rfl⟩

theorem unsubscribe_fields (h : Hub) (id : Nat) (ids : List PaneId) :
    ∃ wanted journal, h.unsubscribe id ids = { h with wanted, journal } := by
  by_cases hl : h.live = some id
  · rw [unsubscribe_eq hl]
    split
    · exact ⟨h.wanted, h.journal, rfl⟩
    · exact ⟨_, _, rfl⟩
  · rw [unsubscribe_of_ne hl]
    exact ⟨h.wanted, h.journal, rfl⟩

theorem subscribe_same (h : Hub) (id : Nat) (ids : List PaneId) :
    Same h (h.subscribe id ids) ∧ (h.subscribe id ids).live = h.live := by
  by_cases hl : h.live = some id
  · rw [subscribe_eq hl]
    split
    · exact ⟨Same.refl h, rfl⟩
    · exact ⟨⟨rfl, rfl, rfl⟩, rfl⟩
  · rw [subscribe_of_ne hl]
    exact ⟨Same.refl h, rfl⟩

theorem unsubscribe_same (h : Hub) (id : Nat) (ids : List PaneId) :
    Same h (h.unsubscribe id ids) ∧ (h.unsubscribe id ids).live = h.live := by
  by_cases hl : h.live = some id
  · rw [unsubscribe_eq hl]
    split
    · exact ⟨Same.refl h, rfl⟩
    · exact ⟨⟨rfl, rfl, rfl⟩, rfl⟩
  · rw [unsubscribe_of_ne hl]
    exact ⟨Same.refl h, rfl⟩

theorem mem_subscribe {h : Hub} {id : Nat} (hl : h.live = some id) (ids : List PaneId)
    {p : PaneId} : p ∈ (h.subscribe id ids).wanted ↔ p ∈ h.wanted ∨ p ∈ ids := by
  rw [← mem_addAll, subscribe_eq hl]
  split
  · next hn => rw [addAll_of_isEmpty hn]
  · rfl

theorem mem_unsubscribe {h : Hub} {id : Nat} (hl : h.live = some id) (ids : List PaneId)
    {p : PaneId} : p ∈ (h.unsubscribe id ids).wanted ↔ p ∈ h.wanted ∧ p ∉ ids := by
  rw [← mem_removeAll, unsubscribe_eq hl]
  split
  · next hn => rw [removeAll_of_isEmpty hn]
  · rfl

/-- **A text** changes no book, and not who is live. -/
theorem receive_same (h : Hub) (id : Nat) (text : String) :
    Same h (h.receive id text) ∧ (h.receive id text).live = h.live := by
  unfold receive
  cases Control.parse text with
  | error e =>
    refine ⟨⟨rfl, rfl, entries_modify (h := { h with metrics := h.metrics.controlError })
      (fun c => ?_) id⟩, rfl⟩
    simp only [Connection.entry, Outbox.frames_offer _ _ (rfl : (Outgoing.text _).frame? = none)]
  | ok m =>
    simp only
    split
    · exact subscribe_same h id _
    · exact unsubscribe_same h id _
    · exact ⟨Same.refl h, rfl⟩

/-! ### Output -/

/-- **Whether output is for a connection:** it is live, and the pane is asked for. -/
def Concerns (h : Hub) (id : Nat) (p : PaneId) (d : ByteArray) : Prop :=
  d.isEmpty = false ∧ h.live = some id ∧ h.isWanted p = true

instance (h : Hub) (id : Nat) (p : PaneId) (d : ByteArray) : Decidable (h.Concerns id p d) :=
  inferInstanceAs (Decidable (_ ∧ _ ∧ _))

section broadcast
variable {h : Hub} {id : Nat} {p : PaneId} {d : ByteArray}

theorem broadcast_eq (hc : h.Concerns id p d) : h.broadcast p d = match h.connection? id with
    | none => h
    | some c =>
      match c.outbox.put h.policy.sendQueueCapacity (.frame (Frame.encode p d) d.size) with
      | some outbox => h.modify id fun c => { c with outbox }
      | none => { h with metrics := h.metrics.dropped }.dropConnection id fullReason := by
  obtain ⟨hd, hl, hw⟩ := hc
  unfold broadcast
  rw [hd, hl, hw]
  rfl

/-- **With room in the queue** the frame is placed there, and nothing else happens. -/
theorem broadcast_of_room (hc : h.Concerns id p d) (hr : h.hasRoom id = true) :
    (∀ i, (h.broadcast p d).framesOf i =
        if i = id then h.framesOf id ++ [Frame.encode p d] else h.framesOf i) ∧
      (h.broadcast p d).numbers = h.numbers ∧ ∃ connections,
        h.broadcast p d = { h with connections } := by
  rw [broadcast_eq hc]
  cases hf : h.connection? id with
  | none => simp [hasRoom, hf] at hr
  | some c =>
    rw [hasRoom_eq hf] at hr
    have hput := Outbox.put_of_room hr (.frame (Frame.encode p d) d.size)
    simp only [hput]
    refine ⟨fun i => ?_, ?_, _, rfl⟩
    · rw [framesOf_outbox hf]
      by_cases hi : i = id
      · rw [if_pos hi, if_pos hi, Outbox.frames_put hput]
        unfold framesOf
        rw [hf]
        rfl
      · rw [if_neg hi, if_neg hi]
    · exact numbers_modify (by exact fun _ => rfl) h id

/-- **Without room** the frame is lost, and the consumer goes. -/
theorem broadcast_of_full (hc : h.Concerns id p d) (hs : (h.connection? id).isSome = true)
    (hr : h.hasRoom id = false) :
    h.broadcast p d = { h with metrics := h.metrics.dropped }.dropConnection id fullReason := by
  rw [broadcast_eq hc]
  cases hf : h.connection? id with
  | none => simp [hf] at hs
  | some c =>
    rw [hasRoom_eq hf] at hr
    simp only [Outbox.put_of_full hr]

theorem broadcast_of_full_calm (hc : h.Concerns id p d) (hs : (h.connection? id).isSome = true)
    (hr : h.hasRoom id = false) : Calm h (h.broadcast p d) := by
  rw [broadcast_of_full hc hs hr]
  exact (dropConnection_calm _ _ _).after ⟨rfl, rfl, rfl⟩ rfl rfl

/-- **Output that concerns nobody** changes nothing. -/
theorem broadcast_of_not (hc : ∀ id, ¬ h.Concerns id p d) : h.broadcast p d = h := by
  unfold broadcast
  cases hd : d.isEmpty with
  | true => rfl
  | false =>
    cases hl : h.live with
    | none => rfl
    | some id =>
      cases hw : h.isWanted p with
      | false => simp
      | true => exact absurd ⟨hd, hl, hw⟩ (hc id)

end broadcast

end PaneRelay.Hub
