import PaneRelay.Proofs.Hub.Sole
import PaneRelay.Proofs.Hub.Writing
import PaneRelay.Proofs.Runs

/-! # What is written is what was queued

All connections of a hub are at work at the same time, and any of them may move next. In between,
consumers come and go and speak, output arrives, the hub starts and stops, and its token fires.

* `Office`, `Office.step`, `Office.run`: a hub and the book of its writers, with the moves of all
  connections and the calls on the hub in any order.
* `Grew`, `grew_act`: a call on the hub queues messages and fires tokens, and writes nothing.
* `Sound`, `Sound.step`: what holds after every step.
* `Faithful`, `written_faithfully`: what was handed to the sockets, and what the counters say of it. -/

namespace PaneRelay.Hub

/-! ### Calls on the hub -/

/-- Whether an act is a call on the hub, and not the work of a connection. -/
def Act.isCall : Act → Bool
  | .take _ | .adjust _ _ | .serve _ => false
  | _ => true

/-- **Nothing is written:** messages are queued and tokens fire, and what was sent stays as it is. -/
structure Grew (h h' : Hub) : Prop where
  policy : h'.policy = h.policy
  issued : h'.issued = h.issued
  connections : ∃ f, h'.connections = h.connections.map f ∧ ∀ c ∈ h.connections, c.Grown (f c)
  frames : h'.metrics.framesSent = h.metrics.framesSent
  bytes : h'.metrics.bytesSent = h.metrics.bytesSent
  timeouts : h'.metrics.writeTimeouts = h.metrics.writeTimeouts

namespace Grew

variable {h h' h'' : Hub}

/-- The connections stay as they are. -/
theorem of_connections_eq (hp : h'.policy = h.policy) (hi : h'.issued = h.issued)
    (hc : h'.connections = h.connections) (hf : h'.metrics.framesSent = h.metrics.framesSent)
    (hb : h'.metrics.bytesSent = h.metrics.bytesSent)
    (ht : h'.metrics.writeTimeouts = h.metrics.writeTimeouts) : Grew h h' :=
  ⟨hp, hi, ⟨id, by simp [hc], fun c _ => .refl c⟩, hf, hb, ht⟩

theorem refl (h : Hub) : Grew h h := .of_connections_eq rfl rfl rfl rfl rfl rfl

theorem trans (a : Grew h h') (b : Grew h' h'') : Grew h h'' := by
  obtain ⟨f, hf, hfg⟩ := a.connections
  obtain ⟨g, hg, hgg⟩ := b.connections
  refine ⟨b.policy.trans a.policy, b.issued.trans a.issued, ⟨g ∘ f, ?_, fun c hc => ?_⟩,
    b.frames.trans a.frames, b.bytes.trans a.bytes, b.timeouts.trans a.timeouts⟩
  · rw [hg, hf, List.map_map]
  · exact (hfg c hc).trans (hgg (f c) (hf ▸ List.mem_map_of_mem hc))

theorem numbers (g : Grew h h') : h'.numbers = h.numbers := by
  obtain ⟨f, hf, hg⟩ := g.connections
  unfold Hub.numbers
  rw [hf, List.map_map]
  exact List.map_congr_left fun c hc => (hg c hc).id

end Grew

theorem grew_modify {f : Connection → Connection} {h : Hub} {i : Nat}
    (hf : ∀ c ∈ h.connections, c.id = i → c.Grown (f c)) : Grew h (h.modify i f) := by
  refine ⟨rfl, rfl, ⟨_, rfl, fun c hc => ?_⟩, rfl, rfl, rfl⟩
  split
  · next hi => exact hf c hc hi
  · exact .refl c

theorem Connection.grown_cancel (c : Connection) : c.Grown c.cancel :=
  .of_outbox_eq rfl rfl rfl fun _ => rfl

theorem grew_drop (h : Hub) (id : Nat) (reason : String) : Grew h (h.dropConnection id reason) := by
  unfold dropConnection
  split
  · exact (grew_modify fun c _ _ => c.grown_cancel).trans
      (.of_connections_eq rfl rfl rfl rfl rfl rfl)
  · exact .refl h

theorem grew_receive (h : Hub) (id : Nat) (text : String) : Grew h (h.receive id text) := by
  unfold receive
  split
  · have hcount : Grew h { h with metrics := h.metrics.controlError } :=
      .of_connections_eq rfl rfl rfl rfl rfl rfl
    refine hcount.trans (grew_modify fun c _ _ => Connection.grown_offer c _ ?_)
    intro bytes n hm
    cases hm
  · split
    · next ids _ =>
      obtain ⟨wanted, journal, he⟩ := subscribe_fields h id ids
      rw [he]
      exact .of_connections_eq rfl rfl rfl rfl rfl rfl
    · next ids _ =>
      obtain ⟨wanted, journal, he⟩ := unsubscribe_fields h id ids
      rw [he]
      exact .of_connections_eq rfl rfl rfl rfl rfl rfl
    · exact .refl h

theorem mem_of_connection? {h : Hub} {id : Nat} {c : Connection} (hc : h.connection? id = some c) :
    c ∈ h.connections ∧ c.id = id :=
  ⟨List.mem_of_find?_eq_some hc, by simpa using List.find?_some hc⟩

/-- Connections are told apart by their numbers. -/
theorem eq_of_connection? {h : Hub} (hn : h.numbers.Nodup) {id : Nat} {c d : Connection}
    (hc : h.connection? id = some c) (hd : d ∈ h.connections) (hid : d.id = id) : d = c := by
  obtain ⟨hmem, hcid⟩ := mem_of_connection? hc
  exact List.inj_on_of_nodup_map hn hd hmem (hid.trans hcid.symm)

theorem grew_broadcast {h : Hub} (hn : h.numbers.Nodup) (p : PaneId) (d : ByteArray) :
    Grew h (h.broadcast p d) := by
  by_cases hc : ∃ id, h.Concerns id p d
  · obtain ⟨id, hc⟩ := hc
    rw [broadcast_eq hc]
    split
    · exact .refl h
    · next c hfind =>
      split
      · next outbox hput =>
        refine grew_modify fun e he hid => ?_
        rw [eq_of_connection? hn hfind he hid]
        refine Connection.grown_put c (fun bytes n hm => ?_) hput
        cases hm
        exact ⟨p, d, rfl, rfl⟩
      · have hcount : Grew h { h with metrics := h.metrics.dropped } :=
          .of_connections_eq rfl rfl rfl rfl rfl rfl
        exact hcount.trans (grew_drop _ _ _)
  · rw [broadcast_of_not (not_exists.mp hc)]
    exact .refl h

/-- **A call writes nothing.** -/
theorem grew_act {h : Hub} (hn : h.numbers.Nodup) {a : Act} (ha : a.isCall = true)
    (hout : a.isAttach = false) : Grew h (h.act a) := by
  cases a with
  | attach now => cases hout
  | drop id reason => exact grew_drop h id reason
  | receive id text => exact grew_receive h id text
  | broadcast p d => exact grew_broadcast hn p d
  | take id => cases ha
  | adjust id f => cases ha
  | serve now => cases ha
  | start bound => exact .of_connections_eq rfl rfl rfl rfl rfl rfl
  | beginStop =>
    show Grew h h.beginStop
    have hlife : Grew h { h with life := h.life.beginStop } :=
      .of_connections_eq rfl rfl rfl rfl rfl rfl
    unfold beginStop
    dsimp only
    split
    · split
      · exact hlife.trans (grew_drop _ _ _)
      · exact hlife
    · exact hlife
  | finishStop => exact .of_connections_eq rfl rfl rfl rfl rfl rfl
  | cancel =>
    refine ⟨rfl, rfl, ⟨_, rfl, fun c _ => ?_⟩, rfl, rfl, rfl⟩
    split
    · exact .refl c
    · exact .of_outbox_eq rfl rfl rfl fun _ => rfl

/-! ### All connections at work -/

/-- **A hub and the book of its writers.** -/
structure Office where
  /-- The hub. -/
  hub : Hub
  /-- What the writers did, oldest first, each deed with the number of the connection. -/
  book : List (Nat × Deed) := []

namespace Office

/-- A hub that was not used yet. -/
def fresh (policy : HubPolicy) : Office := { hub := Hub.fresh policy }

/-- A connection at work. -/
def desk (o : Office) (c : Connection) : Desk := ⟨c, o.hub.metrics, o.book⟩

/-- **What can happen.** -/
inductive Step where
  /-- A connection moves. -/
  | own (id : Nat) (m : Desk.Move)
  /-- A call on the hub. -/
  | call (a : Act)

/-- The state after a connection has moved. -/
def put (o : Office) (id : Nat) (d : Desk) : Office :=
  { hub := { o.hub.modify id (fun _ => d.conn) with metrics := d.metrics }, book := d.book }

/-- The state after a step, if it can be taken. -/
def step (o : Office) : Step → Option Office
  | .own id m =>
    ((o.hub.connection? id).bind fun c => (o.desk c).step o.hub.policy m).map (o.put id)
  | .call a => if a.isCall then some { o with hub := o.hub.act a } else none

/-- The state after some steps, if they can be taken in this order. -/
def run (o : Office) (ss : List Step) : Option Office := ss.foldlM step o

@[simp] theorem run_nil (o : Office) : o.run [] = some o := rfl

@[simp] theorem run_cons (o : Office) (s : Step) (ss : List Step) :
    o.run (s :: ss) = (o.step s).bind (·.run ss) := rfl

theorem run_append (o : Office) (ss ss' : List Step) :
    o.run (ss ++ ss') = (o.run ss).bind (·.run ss') := List.foldlM_append

/-- What every step keeps, every run keeps. -/
theorem run_induct {P : Office → Prop} (hstep : ∀ o s e, P o → o.step s = some e → P e)
    {o e : Office} {ss : List Step} (ho : P o) (hr : o.run ss = some e) : P e :=
  foldlM_induct hstep ho hr

/-! ### What holds after every step -/

/-- **What holds after every step:** the connections are numbered in turn, the book is about them and
agrees with their queues, and the counters agree with the book. -/
structure Sound (o : Office) : Prop where
  numbers : o.hub.numbers = List.range' 1 o.hub.issued
  kept : ∀ c ∈ o.hub.connections, Kept c (deedsOf o.book c.id)
  known : ∀ e ∈ o.book, e.1 ∈ o.hub.numbers
  tallied : Tallied o.book o.hub.metrics

namespace Sound

variable {o e : Office}

theorem fresh (policy : HubPolicy) : Sound (Office.fresh policy) where
  numbers := rfl
  kept _ hc := absurd hc List.not_mem_nil
  known _ he := absurd he List.not_mem_nil
  tallied := ⟨rfl, rfl, rfl⟩

theorem nodup (h : Sound o) : o.hub.numbers.Nodup := by
  rw [h.numbers]
  exact List.nodup_range'

/-- Nothing is written. -/
theorem grew (h : Sound o) {hub : Hub} (hg : Grew o.hub hub) : Sound { o with hub } := by
  refine ⟨?_, ?_, ?_, ?_⟩
  · show hub.numbers = _
    rw [hg.numbers, h.numbers, hg.issued]
  · obtain ⟨f, hf, hgrown⟩ := hg.connections
    show ∀ c ∈ hub.connections, Kept c (deedsOf o.book c.id)
    rw [hf]
    intro c' hc'
    obtain ⟨c, hc, rfl⟩ := List.mem_map.mp hc'
    rw [(hgrown c hc).id]
    exact (h.kept c hc).grown (hgrown c hc)
  · show ∀ e ∈ o.book, e.1 ∈ hub.numbers
    rw [hg.numbers]
    exact h.known
  · exact ⟨hg.frames.trans h.tallied.frames, hg.bytes.trans h.tallied.bytes,
      hg.timeouts.trans h.tallied.timeouts⟩

/-- A consumer is let in. -/
theorem attach (h : Sound o) {c : Connection} (hid : c.id = o.hub.issued + 1) (hk : Kept c []) :
    Sound { o with hub := o.hub.issue.2.attach c } := by
  have hnum : (o.hub.issue.2.attach c).numbers = o.hub.numbers ++ [o.hub.issued + 1] :=
    hid ▸ attach_numbers o.hub.issue.2 c
  have hiss : (o.hub.issue.2.attach c).issued = o.hub.issued + 1 :=
    (attach_fields o.hub.issue.2 c).2.2.1
  have hmet : (o.hub.issue.2.attach c).metrics = o.hub.metrics.opened o.hub.live.isSome := by
    unfold Hub.attach
    cases hl : o.hub.live <;> simp [issue, hl, Hub.note, modify]
  refine ⟨?_, ?_, fun e he => ?_, ?_⟩
  · show (o.hub.issue.2.attach c).numbers = List.range' 1 (o.hub.issue.2.attach c).issued
    rw [hnum, hiss, h.numbers, List.range'_concat]
    simp [Nat.add_comm]
  · show ∀ c' ∈ (o.hub.issue.2.attach c).connections, _
    rw [attach_connections]
    intro c' hc'
    rcases List.mem_append.mp hc' with hc' | hc'
    · obtain ⟨e, he, rfl⟩ := List.mem_map.mp hc'
      split
      · exact (h.kept e he).grown e.grown_cancel
      · exact h.kept e he
    · -- the book says nothing of the new number
      obtain rfl : c' = c := List.mem_singleton.mp hc'
      rw [deedsOf_eq_nil fun e he hnew => ?_]
      · exact hk
      · have hmem := h.known e he
        rw [h.numbers, hnew, hid, List.mem_range'_1] at hmem
        omega
  · show e.1 ∈ (o.hub.issue.2.attach c).numbers
    rw [hnum]
    exact List.mem_append_left _ (h.known e he)
  · show Tallied o.book (o.hub.issue.2.attach c).metrics
    rw [hmet]
    exact ⟨h.tallied.frames, h.tallied.bytes, h.tallied.timeouts⟩

/-- **A connection moves.** The deeds of the others stay as they are. -/
theorem own (h : Sound o) {id : Nat} {c : Connection} (hc : o.hub.connection? id = some c)
    {m : Desk.Move} {d : Desk} (hs : (o.desk c).step o.hub.policy m = some d) :
    Sound (o.put id d) := by
  obtain ⟨hmem, hcid⟩ := mem_of_connection? hc
  obtain ⟨hid, hbook⟩ := step_book hs
  rw [show (o.desk c).conn.id = id from hcid] at hid hbook
  have hnum : (o.put id d).hub.numbers = o.hub.numbers := by
    show (o.hub.connections.map fun e => if e.id = id then d.conn else e).map Connection.id = _
    rw [List.map_map]
    refine List.map_congr_left fun e _ => ?_
    rw [Function.comp_apply]
    split
    · next he => rw [hid, he]
    · rfl
  refine ⟨hnum.trans h.numbers, fun c' hc' => ?_, fun e he => ?_,
    tallied_step (d := o.desk c) h.tallied hs⟩
  · obtain ⟨e, he, rfl⟩ := List.mem_map.mp hc'
    split
    · have hk : Kept (o.desk c).conn (o.desk c).deeds := h.kept c hmem
      exact hk.step hs
    · next hne =>
      have hdeeds : deedsOf d.book e.id = deedsOf o.book e.id := by
        obtain ⟨hb, -⟩ | ⟨x, hb, -⟩ := hbook
        · rw [hb]
          rfl
        · rw [hb, deedsOf_append, deedsOf_of_ne fun hi => hne hi.symm]
          exact List.append_nil _
      show Kept e (deedsOf d.book e.id)
      rw [hdeeds]
      exact h.kept e he
  · have he : e ∈ d.book := he
    rw [hnum]
    obtain ⟨hb, -⟩ | ⟨x, hb, -⟩ := hbook
    · rw [hb] at he
      exact h.known e he
    · rw [hb] at he
      rcases List.mem_append.mp he with he | he
      · exact h.known e he
      · obtain rfl := List.mem_singleton.mp he
        exact hcid ▸ List.mem_map_of_mem hmem

/-- **Every step keeps it.** -/
theorem step (h : Sound o) {s : Step} (hs : o.step s = some e) : Sound e := by
  cases s with
  | own id m =>
    obtain ⟨d, hd, rfl⟩ := Option.map_eq_some_iff.mp hs
    obtain ⟨c, hc, hd⟩ := Option.bind_eq_some_iff.mp hd
    exact h.own hc hd
  | call a =>
    obtain ⟨ha, hs⟩ := Option.ite_none_right_eq_some.mp hs
    cases hs
    cases hout : a.isAttach with
    | false => exact h.grew (grew_act h.nodup ha hout)
    | true =>
      cases a with
      | attach now => exact h.attach rfl (Kept.fresh _ _ _)
      | _ => cases hout

theorem run (h : Sound o) {ss : List Step} (hr : o.run ss = some e) : Sound e :=
  run_induct (fun _ _ _ hk hs => hk.step hs) h hr

end Sound

/-! ### What was written -/

/-- **What is written is what was queued**, and what is counted is what was written. -/
structure Faithful (o : Office) : Prop where
  /-- What was handed to the socket of a connection is the first part of its queue, in its order, and
  after that the close frame, at most once. -/
  fifo : ∀ c ∈ o.hub.connections, ∃ n k, k ≤ 1 ∧
    (deedsOf o.book c.id).filterMap Deed.attempt? =
      (c.outbox.log.take n).map .message ++ List.replicate k .close
  /-- Each deed fits those before it. -/
  apt : ∀ id past d, past ++ [d] <+: deedsOf o.book id → d.Apt past
  /-- Once a deadline was hit, nothing is handed over but the close frame. -/
  silent : ∀ id past m post, deedsOf o.book id = past ++ .timedOut m :: post →
    ∀ a ∈ post.filterMap Deed.attempt?, a = .close
  /-- The frames in the queues carry the lengths of their data. -/
  genuine : ∀ c ∈ o.hub.connections, ∀ m ∈ c.outbox.log, m.Genuine
  /-- The book is about the connections. -/
  known : ∀ e ∈ o.book, e.1 ∈ o.hub.numbers
  /-- The counters of frames, of data bytes and of deadlines agree with the book. -/
  tallied : Tallied o.book o.hub.metrics

theorem Sound.apt {o : Office} (h : Sound o) {id : Nat} {past : List Deed} {d : Deed}
    (hp : past ++ [d] <+: deedsOf o.book id) : d.Apt past := by
  by_cases hid : id ∈ o.hub.numbers
  · obtain ⟨c, hc, rfl⟩ := List.mem_map.mp hid
    exact (h.kept c hc).apt past d hp
  · have hnone : deedsOf o.book id = [] :=
      deedsOf_eq_nil fun e he he' => hid (he' ▸ h.known e he)
    rw [hnone] at hp
    simp at hp

/-- **What is written is what was queued.** However the moves of all connections and the calls on the
hub follow each other, the messages of a queue are handed to the socket in their order, none twice and
none left out, and the close frame comes last, once at most; after a deadline that was hit there is
nothing but the close frame. The frames sent and the data bytes sent are those of the frames that a
socket took while the writer waited for it, and the deadlines are those that were hit. -/
theorem written_faithfully {policy : HubPolicy} {ss : List Step} {o : Office}
    (hr : (Office.fresh policy).run ss = some o) : Faithful o := by
  have h : Sound o := (Sound.fresh policy).run hr
  refine ⟨fun c hc => ?_, fun id past d => h.apt, fun id past m post hd a ha => ?_,
    fun c hc => (h.kept c hc).genuine, h.known, h.tallied⟩
  · have ha := (h.kept c hc).attempts
    cases hw : c.writer.isAtWork with
    | true =>
      rw [hw] at ha
      exact ⟨c.outbox.taken, 0, Nat.zero_le 1, ha⟩
    | false =>
      rw [hw] at ha
      exact ⟨c.outbox.taken, 1, Nat.le_refl 1, ha⟩
  · obtain ⟨d, hmem, hattempt⟩ := List.mem_filterMap.mp ha
    obtain ⟨before, after, rfl⟩ := List.append_of_mem hmem
    have hapt : d.Apt (past ++ .timedOut m :: before) := by
      refine @Sound.apt o h id _ _ ?_
      rw [hd]
      exact ⟨after, by simp⟩
    cases d with
    | handed m' => exact absurd (hapt (.timedOut m) (by simp)) (by simp [Deed.isEnd])
    | parted =>
      cases hattempt
      rfl
    | _ => cases hattempt

/-- One frame is sent to a consumer. It does not read the next one, whose deadline is hit; and then
it does not read the close frame. -/
theorem written_faithfully_to_mute : ∃ ss o, (Office.fresh ⟨0, 5, 100, 100, 8⟩).run ss = some o ∧
    (o.hub.metrics.framesSent, o.hub.metrics.bytesSent, o.hub.metrics.writeTimeouts) = (1, 3, 1) ∧
    ((deedsOf o.book 1).filterMap Deed.attempt?).length = 3 ∧ Faithful o := by
  have hrun : ((Office.fresh ⟨0, 5, 100, 100, 8⟩).run [.call (.attach 0),
      .call (.receive 1 "\x7b\"action\":\"subscribe\",\"paneIds\":[\"%0\"]\x7d"),
      .call (.broadcast "%0" "one".toUTF8), .call (.broadcast "%0" "and two".toUTF8),
      .own 1 (.hand 0), .own 1 (.complete 0), .own 1 (.hand 0), .own 1 (.expire 5), .own 1 (.part 5),
      .own 1 .giveUp]).map (fun o => ((o.hub.metrics.framesSent, o.hub.metrics.bytesSent,
        o.hub.metrics.writeTimeouts), ((deedsOf o.book 1).filterMap Deed.attempt?).length)) =
      some ((1, 3, 1), 3) := by
    decide +kernel
  obtain ⟨o, ho, he⟩ := Option.map_eq_some_iff.mp hrun
  exact ⟨_, o, ho, congrArg Prod.fst he, congrArg Prod.snd he, written_faithfully ho⟩

end Office

end PaneRelay.Hub
