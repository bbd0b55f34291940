import PaneRelay.Proofs.Hub.Run

/-! # What a stop still writes

A stop fires the token of the live connection. From then on the connection writes the message that
it was already writing, if there is one, and the close frame. What waits in its queue stays there,
although the socket would take it.

* `Socket.written`: what was ever written to a consumer that has not gone.
* `Connection.rest`: what a connection may still write once its token has fired.
* `Parts`, `serve_parts`: it writes all of that at once, or waits, or gives up.
* `Leaving.run`: whatever moments follow.
* `stop_leaves_queue`: what a stop writes, and when that is all that was queued. -/

namespace PaneRelay.Hub

/-! ### The socket -/

namespace Socket

/-- **What was written**, oldest first: what has arrived, and what is on the way. -/
def written (s : Socket) : List Item := s.received ++ s.unread

/-- A socket whose consumer reads has nothing on the way. -/
def Sound (s : Socket) : Prop := s.reading = true → s.left = false → s.unread = []

theorem Sound.put {s : Socket} (h : s.Sound) (i : Item) : (s.put i).Sound := by
  unfold Socket.put
  split
  · exact h
  · next hl =>
    split
    · next hr => exact fun _ _ => h hr (by simpa using hl)
    · next hr => exact fun hr' => absurd hr' hr

theorem written_put {s : Socket} (h : s.Sound) (hl : s.left = false) (i : Item) :
    (s.put i).written = s.written ++ [i] := by
  unfold Socket.put
  rw [if_neg (by simp [hl])]
  split
  · next hr => simp [written, h hr hl]
  · simp [written]

theorem put_of_left {s : Socket} (hl : s.left = true) (i : Item) : s.put i = s := if_pos hl

theorem left_put (s : Socket) (i : Item) : (s.put i).left = s.left := by
  unfold Socket.put
  split
  · rfl
  · split <;> rfl

/-- Several items written. -/
def puts (s : Socket) (l : List Item) : Socket := l.foldl put s

theorem puts_append (s : Socket) (l l' : List Item) : s.puts (l ++ l') = (s.puts l).puts l' :=
  List.foldl_append

theorem puts_sound {s : Socket} (h : s.Sound) (l : List Item) :
    (s.puts l).Sound ∧ (s.puts l).left = s.left := by
  induction l generalizing s with
  | nil => exact ⟨h, rfl⟩
  | cons i l ih =>
    obtain ⟨hs, hl⟩ := ih (h.put i)
    exact ⟨hs, hl.trans (left_put s i)⟩

theorem written_puts {s : Socket} (h : s.Sound) (l : List Item) :
    (s.puts l).written = s.written ++ if s.left then [] else l := by
  induction l generalizing s with
  | nil => simp [puts]
  | cons i l ih =>
    show ((s.put i).puts l).written = _
    rw [ih (h.put i), left_put]
    cases hl : s.left with
    | true => simp [put_of_left hl]
    | false => simp [written_put h hl]

/-- For a consumer that reads, what was written has arrived. -/
theorem Sound.received_eq {s : Socket} (h : s.Sound) (hr : s.reading = true)
    (hl : s.left = false) : s.received = s.written := by
  rw [written, h hr hl, List.append_nil]

theorem reading_puts (s : Socket) (l : List Item) : (s.puts l).reading = s.reading := by
  induction l generalizing s with
  | nil => rfl
  | cons i l ih =>
    refine (ih (s.put i)).trans ?_
    unfold Socket.put
    split
    · rfl
    · split <;> rfl

end Socket

/-! ### A connection whose token has fired -/

/-- Whether the writer is at work: it waits for a message, or writes one. -/
def Writer.isAtWork : Writer → Bool
  | .ready | .stuck _ _ => true
  | _ => false

/-- What a consumer gets of a message. -/
def Outgoing.item? : Outgoing → Option Item
  | .frame bytes _ => some (.binary bytes)
  | .text t => some (.text t)
  | .ping => none

/-- The bytes of a binary message. -/
def Item.bytes? : Item → Option ByteArray
  | .binary bytes => some bytes
  | _ => none

namespace Connection

/-- The message that is being written. -/
def inFlight (c : Connection) : List Item :=
  match c.writer with
  | .stuck m _ => m.item?.toList
  | .closing (some m) _ => m.item?.toList
  | _ => []

/-- **What may still be written** once the token has fired. -/
def rest (c : Connection) : List Item :=
  if c.writer.isFinished then [] else c.inFlight ++ [closeFrame]

theorem deliver_socket (now : Nat) (m : Outgoing) (c : Connection) :
    (c.deliver now m).socket = c.socket.puts m.item?.toList := by
  cases m with
  | ping =>
    show (if _ then c.hear now else c).socket = c.socket
    split <;> rfl
  | _ => rfl

theorem deliver_fields (now : Nat) (m : Outgoing) (c : Connection) :
    (c.deliver now m).cancelled = c.cancelled ∧ (c.deliver now m).outbox = c.outbox := by
  cases m with
  | ping =>
    show (if _ then c.hear now else c).cancelled = _ ∧ (if _ then c.hear now else c).outbox = _
    split <;> exact ⟨rfl, rfl⟩
  | _ => exact ⟨rfl, rfl⟩

/-- **What a moment does to a connection whose token has fired:** it writes the rest and is over, or
it waits for a consumer that does not read, or it gives the close frame up. -/
inductive Parts (c c' : Connection) : Prop where
  | wrote (socket : c'.socket = c.socket.puts c.rest) (rest : c'.rest = [])
  | waits (mute : c.socket.reading = false) (socket : c'.socket = c.socket)
      (rest : c'.rest = c.rest)
  | gaveUp {m : Option Outgoing} {deadline : Nat} (closing : c.writer = .closing m deadline)
      (socket : c'.socket = c.socket) (rest : c'.rest = [])

theorem reading_of_not_accepts {s : Socket} {n : Nat} (h : ¬ s.accepts n = true) :
    s.reading = false := by
  cases hr : s.reading with
  | false => rfl
  | true => exact absurd (by simp [Socket.accepts, hr]) h

/-- **Winding down** leaves the queue alone. -/
theorem windDown_parts (p : HubPolicy) (now : Nat) (c : Connection) :
    (c.windDown p now).outbox = c.outbox ∧ (c.windDown p now).cancelled = c.cancelled ∧
      Parts c (c.windDown p now) := by
  -- the close frame alone, or behind a message
  have halone : c.rest = [closeFrame] → Parts c c.close := by
    intro hr
    refine .wrote ?_ rfl
    rw [hr]
    rfl
  have hboth : ∀ m : Outgoing, c.rest = m.item?.toList ++ [closeFrame] →
      Parts c (c.deliver now m).close := by
    intro m hm
    refine .wrote ?_ rfl
    show (c.deliver now m).socket.put closeFrame = _
    rw [hm, Socket.puts_append, deliver_socket]
    rfl
  unfold windDown
  cases hw : c.writer with
  | ready =>
    have hrest : c.rest = [closeFrame] := by simp [rest, inFlight, hw, Writer.isFinished]
    simp only
    split
    · exact ⟨rfl, rfl, halone hrest⟩
    · next ha => exact ⟨rfl, rfl, .waits (reading_of_not_accepts ha) rfl hrest.symm⟩
  | stuck m deadline =>
    have hrest : c.rest = m.item?.toList ++ [closeFrame] := by
      simp [rest, inFlight, hw, Writer.isFinished]
    obtain ⟨hc, ho⟩ := deliver_fields now m c
    simp only
    split
    · exact ⟨ho, hc, hboth m hrest⟩
    · next ha => exact ⟨rfl, rfl, .waits (reading_of_not_accepts ha) rfl hrest.symm⟩
  | closing m deadline =>
    cases m with
    | none =>
      have hrest : c.rest = [closeFrame] := by simp [rest, inFlight, hw, Writer.isFinished]
      simp only
      split
      · exact ⟨rfl, rfl, halone hrest⟩
      · next ha => exact ⟨rfl, rfl, .waits (reading_of_not_accepts ha) rfl rfl⟩
    | some m =>
      have hrest : c.rest = m.item?.toList ++ [closeFrame] := by
        simp [rest, inFlight, hw, Writer.isFinished]
      obtain ⟨hc, ho⟩ := deliver_fields now m c
      simp only
      split
      · exact ⟨ho, hc, hboth m hrest⟩
      · next ha => exact ⟨rfl, rfl, .waits (reading_of_not_accepts ha) rfl rfl⟩
  | finished =>
    have hrest : c.rest = [] := by simp [rest, hw, Writer.isFinished]
    refine ⟨rfl, rfl, .wrote ?_ hrest⟩
    rw [hrest]
    rfl

theorem serve_eq_windDown (p : HubPolicy) (now : Nat) {c d : Connection} {metrics : Metrics}
    (hd : d.cancelled = true) (he : (c.expire now metrics).1 = d) :
    (c.serve p now metrics).1 = d.windDown p now := by
  show (((c.expire now metrics).1.keepAlive p now).work p now (c.expire now metrics).2).1 = _
  have hk : d.keepAlive p now = d := by simp [keepAlive, hd]
  rw [he, hk, work, if_pos hd]

theorem serve_parts (p : HubPolicy) (now : Nat) {c : Connection} (hc : c.cancelled = true)
    (metrics : Metrics) :
    (c.serve p now metrics).1.outbox = c.outbox ∧ (c.serve p now metrics).1.cancelled = true ∧
      Parts c (c.serve p now metrics).1 := by
  by_cases hup : ∃ m deadline, c.writer = .closing m deadline ∧ deadline ≤ now
  · obtain ⟨m, deadline, hw, hd⟩ := hup
    have he : (c.expire now metrics).1 = { c with writer := .finished } := by
      simp [expire, hw, hd]
    rw [serve_eq_windDown p now (by exact hc) he]
    exact ⟨rfl, hc, .gaveUp hw rfl rfl⟩
  · have he : (c.expire now metrics).1 = c := by
      cases hw : c.writer with
      | closing m deadline =>
        have hd : ¬ deadline ≤ now := fun hd => hup ⟨m, deadline, hw, hd⟩
        simp [expire, hw, hd]
      | _ => simp [expire, hw, hc]
    rw [serve_eq_windDown p now hc he]
    obtain ⟨ho, hcan, h⟩ := windDown_parts p now c
    exact ⟨ho, hcan.trans hc, h⟩

theorem rest_of_isAtWork {c : Connection} (h : c.writer.isAtWork = true) :
    c.rest = c.inFlight ++ [closeFrame] := by
  unfold rest
  cases hw : c.writer with
  | finished =>
    rw [hw] at h
    cases h
  | _ => rfl

/-- A consumer that reads gets the rest at once. -/
theorem serve_of_reading (p : HubPolicy) (now : Nat) {c : Connection} (hc : c.cancelled = true)
    (hs : c.socket.Sound) (hr : c.socket.reading = true) (hl : c.socket.left = false)
    (hwork : c.writer.isAtWork = true) (metrics : Metrics) :
    (c.serve p now metrics).1.socket.received =
      c.socket.received ++ (c.inFlight ++ [closeFrame]) := by
  obtain ⟨-, -, hparts⟩ := serve_parts p now hc metrics
  have hsock : (c.serve p now metrics).1.socket = c.socket.puts c.rest := by
    cases hparts with
    | wrote hsocket _ => exact hsocket
    | waits hmute _ _ => exact absurd (hr.symm.trans hmute) (by decide)
    | gaveUp hclosing _ _ =>
      rw [hclosing] at hwork
      cases hwork
  obtain ⟨hsound, hleft⟩ := Socket.puts_sound hs c.rest
  rw [hsock, hsound.received_eq ((Socket.reading_puts _ _).trans hr) (hleft.trans hl),
    Socket.written_puts hs, hl, rest_of_isAtWork hwork, hs.received_eq hr hl]
  rfl

end Connection

/-! ### Moments after a stop -/

/-- **What can happen to a consumer that is shown out.** -/
inductive Moment where
  /-- All connections are served. -/
  | serve (now : Nat)
  /-- The consumer reads. -/
  | read
  /-- It stops to read. -/
  | mute
  /-- It goes away. -/
  | leave

/-- The act of a hub that a moment of a consumer is. -/
def Moment.act (id : Nat) : Moment → Act
  | .serve now => .serve now
  | .read => .adjust id fun c => { c with socket := c.socket.read }
  | .mute => .adjust id fun c => { c with socket := c.socket.mute }
  | .leave => .adjust id fun c => { c with socket := c.socket.leave }

/-- **A connection on its way out**, and what it was when its token fired: its queue has stayed, and
what was written since and what may still be written come from what might be written then. -/
structure Leaving (c c' : Connection) : Prop where
  cancelled : c'.cancelled = true
  outbox : c'.outbox = c.outbox
  sound : c'.socket.Sound
  wrote : ∃ done, c'.socket.written = c.socket.written ++ done ∧ done ++ c'.rest <+: c.rest

namespace Leaving

variable {c c' d : Connection}

/-- What the consumer does writes nothing. -/
theorem socket (h : Leaving c c') (hc : d.cancelled = c'.cancelled) (ho : d.outbox = c'.outbox)
    (hr : d.rest = c'.rest) (hs : d.socket.Sound) (hw : d.socket.written = c'.socket.written) :
    Leaving c d := by
  obtain ⟨done, hd, hp⟩ := h.wrote
  exact ⟨hc.trans h.cancelled, ho.trans h.outbox, hs, done, hw.trans hd, by rwa [hr]⟩

theorem serve (h : Leaving c c') (p : HubPolicy) (now : Nat) (metrics : Metrics) :
    Leaving c (c'.serve p now metrics).1 := by
  obtain ⟨done, hd, hp⟩ := h.wrote
  have hpre : done <+: c.rest := (List.prefix_append _ _).trans hp
  obtain ⟨ho, hc, hparts⟩ := Connection.serve_parts p now h.cancelled metrics
  cases hparts with
  | wrote hs hr =>
    have hw := Socket.written_puts h.sound c'.rest
    rw [← hs] at hw
    refine ⟨hc, ho.trans h.outbox, by rw [hs]; exact (Socket.puts_sound h.sound _).1, ?_⟩
    cases hl : c'.socket.left with
    | true =>
      rw [hl, if_pos rfl, List.append_nil] at hw
      exact ⟨done, hw.trans hd, by rwa [hr, List.append_nil]⟩
    | false =>
      rw [hl, if_neg (by decide), hd, List.append_assoc] at hw
      exact ⟨done ++ c'.rest, hw, by rwa [hr, List.append_nil]⟩
  | waits _ hs hr =>
    exact ⟨hc, ho.trans h.outbox, by rw [hs]; exact h.sound, done, by rw [hs, hd], by rwa [hr]⟩
  | gaveUp _ hs hr =>
    refine ⟨hc, ho.trans h.outbox, by rw [hs]; exact h.sound, done, by rw [hs, hd], ?_⟩
    rwa [hr, List.append_nil]

end Leaving

theorem connection?_serveAll (p : HubPolicy) (now id : Nat) (cs : List Connection)
    (metrics : Metrics) :
    ∃ metrics', (serveAll p now cs metrics).1.find? (fun c => c.id == id) =
      (cs.find? fun c => c.id == id).map fun c => (c.serve p now metrics').1 := by
  induction cs generalizing metrics with
  | nil => exact ⟨metrics, rfl⟩
  | cons c cs ih =>
    have hid : (c.serve p now metrics).1.id = c.id :=
      congrArg Prod.fst (Connection.entry_serve p now c metrics)
    unfold serveAll
    simp only [List.find?_cons, hid]
    cases c.id == id with
    | true => exact ⟨metrics, rfl⟩
    | false => exact ih _

/-- Without a live consumer a moment only serves the connections. -/
theorem connection?_serve {h : Hub} (hl : h.live = none) (now id : Nat) :
    (h.serve now).live = none ∧ ∃ metrics, (h.serve now).connection? id =
      (h.connection? id).map fun c => (c.serve h.policy now metrics).1 := by
  obtain ⟨metrics, hm⟩ := connection?_serveAll h.policy now id h.connections h.metrics
  have hreap : h.serve now = { h with
      connections := (serveAll h.policy now h.connections h.metrics).1
      metrics := (serveAll h.policy now h.connections h.metrics).2 } := by
    unfold Hub.serve reap
    simp only [hl]
  rw [hreap]
  exact ⟨hl, metrics, hm⟩

/-- **Whatever moments follow**, the connection stays on its way out. -/
theorem Leaving.run {h : Hub} {id : Nat} {c c' : Connection} (hl : h.live = none)
    (hc : h.connection? id = some c') (hle : Leaving c c') (ms : List Moment) :
    ∃ d, (h.run (ms.map (Moment.act id))).connection? id = some d ∧ Leaving c d := by
  induction ms generalizing h c' with
  | nil => exact ⟨c', hc, hle⟩
  | cons m ms ih =>
    -- a change of the socket
    have hsock : ∀ f : Socket → Socket, ((f c'.socket).Sound ∧
          (f c'.socket).written = c'.socket.written) →
        ∃ d, ((h.act (.adjust id fun c => { c with socket := f c.socket })).run
          (ms.map (Moment.act id))).connection? id = some d ∧ Leaving c d := by
      rintro f ⟨hs, hw⟩
      have hle' : Leaving c { c' with socket := f c'.socket } := hle.socket rfl rfl rfl hs hw
      refine ih hl ?_ hle'
      show (h.modify id (Connection.adjust fun c => { c with socket := f c.socket })).connection? id
        = _
      rw [connection?_modify
        (f := Connection.adjust fun c => { c with socket := f c.socket }) (fun _ => rfl),
        if_pos rfl, hc]
      rfl
    cases m with
    | serve now =>
      obtain ⟨hl', metrics, hd⟩ := connection?_serve hl now id
      rw [hc] at hd
      exact ih hl' hd (hle.serve _ _ _)
    | mute => exact hsock Socket.mute ⟨nofun, rfl⟩
    | leave => exact hsock Socket.leave ⟨fun _ => nofun, rfl⟩
    | read =>
      refine hsock Socket.read ?_
      unfold Socket.read
      split
      · next h' => exact ⟨fun _ hf => absurd (h'.symm.trans hf) (by decide), rfl⟩
      · exact ⟨fun _ _ => rfl, by simp [Socket.written]⟩

/-- **A stop fires the token** of the live connection, and does nothing else to it. -/
theorem beginStop_eq {h : Hub} {id : Nat} {c : Connection} (hrun : h.life.running = true)
    (hlive : h.live = some id) (hc : h.connection? id = some c) :
    h.beginStop.live = none ∧ h.beginStop.connection? id = some c.cancel := by
  have hstop : h.beginStop =
      Hub.dropConnection { h with life := h.life.beginStop } id stoppingReason := by
    unfold beginStop
    simp only [hlive, hrun, if_true]
  obtain ⟨-, hnone, -, -⟩ := dropConnection_of_live
    (h := { h with life := h.life.beginStop }) hlive stoppingReason
  rw [hstop]
  refine ⟨hnone, ?_⟩
  unfold dropConnection
  rw [if_pos hlive]
  show (Hub.modify { h with life := h.life.beginStop } id Connection.cancel).connection? id = _
  rw [connection?_modify (f := Connection.cancel) (fun _ => rfl), if_pos rfl]
  show (h.connection? id).map Connection.cancel = _
  rw [hc]
  rfl

/-- What was written since, read as frames. -/
theorem frames_of_prefix {c c' : Connection} {done : List Item}
    (hw : c'.socket.written = c.socket.written ++ done)
    (hp : done <+: c.inFlight ++ [Connection.closeFrame]) :
    ∃ l, c'.socket.written.filterMap Item.bytes? = c.socket.written.filterMap Item.bytes? ++ l ∧
      l <+: c.inFlight.filterMap Item.bytes? := by
  refine ⟨done.filterMap Item.bytes?, by rw [hw, List.filterMap_append], ?_⟩
  have h := hp.filterMap Item.bytes?
  have hclose : [Connection.closeFrame].filterMap Item.bytes? = [] := rfl
  rwa [List.filterMap_append, hclose, List.append_nil] at h

/-- **What a stop still writes.** A running hub with a live consumer is stopped. Whatever the
consumer and the clock do then, its queue stays as it is, and what is written is at most the message
that was being written and the close frame; so if all of its frames are written, none waited in its
queue. A consumer that reads gets just that message and the close frame at the next moment. -/
theorem stop_leaves_queue {h : Hub} {id : Nat} {c : Connection} (hrun : h.life.running = true)
    (hlive : h.live = some id) (hc : h.connection? id = some c) (hs : c.socket.Sound) :
    (∀ ms : List Moment, ∃ c',
      (h.run (.beginStop :: ms.map (Moment.act id))).connection? id = some c' ∧
        c'.outbox = c.outbox ∧
        (∃ done, done <+: c.inFlight ++ [Connection.closeFrame] ∧
          c'.socket.written = c.socket.written ++ done) ∧
        (c'.socket.written.filterMap Item.bytes? = c.socket.written.filterMap Item.bytes? ++
            (c.inFlight.filterMap Item.bytes? ++ c.outbox.waiting.filterMap Outgoing.frame?) →
          c.outbox.waiting.filterMap Outgoing.frame? = [])) ∧
    (c.socket.reading = true → c.socket.left = false → c.writer.isAtWork = true → ∀ now, ∃ c',
      (h.run [.beginStop, .serve now]).connection? id = some c' ∧
        c'.socket.received = c.socket.received ++ (c.inFlight ++ [Connection.closeFrame])) := by
  obtain ⟨hnone, hcancel⟩ := beginStop_eq hrun hlive hc
  have hpre : c.rest <+: c.inFlight ++ [Connection.closeFrame] := by
    unfold Connection.rest
    split
    · exact List.nil_prefix
    · exact List.prefix_rfl
  constructor
  · intro ms
    have hstart : Leaving c c.cancel :=
      ⟨rfl, rfl, hs, [], by simp [Connection.cancel], List.prefix_rfl⟩
    obtain ⟨c', hc', hle⟩ := hstart.run hnone hcancel ms
    obtain ⟨done, hdone, hp⟩ := hle.wrote
    have hdone' : done <+: c.inFlight ++ [Connection.closeFrame] :=
      ((List.prefix_append _ _).trans hp).trans hpre
    refine ⟨c', hc', hle.outbox, ⟨done, hdone', hdone⟩, fun hall => ?_⟩
    obtain ⟨l, hl, hlp⟩ := frames_of_prefix hdone hdone'
    rw [hl, List.append_cancel_left_eq] at hall
    have hlen := hlp.length_le
    rw [hall, List.length_append] at hlen
    exact List.length_eq_zero_iff.mp (by omega)
  · intro hr hl hwork now
    obtain ⟨-, metrics, hd⟩ := connection?_serve hnone now id
    rw [hcancel] at hd
    exact ⟨_, hd, Connection.serve_of_reading _ now (c := c.cancel) rfl hs hr hl hwork metrics⟩

/-- A consumer that reads, and a frame that it has not got yet. -/
def lastWords : List Act :=
  [.start (.ok ()), .attach 0,
    .receive 1 "\x7b\"action\":\"subscribe\",\"paneIds\":[\"%0\"]\x7d",
    .broadcast "%0" "bye".toUTF8]

/-- The frame waits, and the consumer gets the close frame alone. -/
theorem stop_leaves_last_words :
    let h := (fresh (.ofSection {})).run lastWords
    h.life.running = true ∧ h.live = some 1 ∧ ∃ c, h.connection? 1 = some c ∧ c.socket.Sound ∧
      c.outbox.waiting.filterMap Outgoing.frame? = [Frame.encode "%0" "bye".toUTF8] ∧
      (∃ c', (h.run (.beginStop :: [Moment.serve 0].map (Moment.act 1))).connection? 1 = some c' ∧
        c'.outbox = c.outbox) ∧
      ∃ c', (h.run [.beginStop, .serve 0]).connection? 1 = some c' ∧
        c'.socket.received = [Connection.closeFrame] := by
  intro h
  have hlive : h.life.running = true ∧ h.live = some 1 := by decide +kernel
  have hconn : (h.connection? 1).isSome = true := by decide +kernel
  obtain ⟨c, hc⟩ := Option.isSome_iff_exists.mp hconn
  have hfields : (h.connection? 1).all (fun c =>
      c.socket.reading && !c.socket.left && c.writer.isAtWork && c.socket.unread.isEmpty &&
        c.socket.received.isEmpty && c.inFlight.isEmpty &&
        c.outbox.waiting.filterMap Outgoing.frame? = [Frame.encode "%0" "bye".toUTF8]) = true := by
    decide +kernel
  rw [hc] at hfields
  simp only [Option.all_some, Bool.and_eq_true, Bool.not_eq_true', List.isEmpty_iff,
    decide_eq_true_eq] at hfields
  obtain ⟨⟨⟨⟨⟨⟨hr, hl⟩, hw⟩, hu⟩, hgot⟩, hin⟩, hq⟩ := hfields
  have hs : c.socket.Sound := fun _ _ => hu
  obtain ⟨hany, hnext⟩ := stop_leaves_queue hlive.1 hlive.2 hc hs
  obtain ⟨c', hc', ho, -⟩ := hany [.serve 0]
  obtain ⟨d, hd, hrec⟩ := hnext hr hl hw 0
  rw [hgot, hin] at hrec
  exact ⟨hlive.1, hlive.2, c, hc, hs, hq, ⟨c', hc', ho⟩, d, hd, hrec⟩

/-- **The last words are not heard:** a frame is queued for a consumer that reads, the hub is
stopped, and the connection is over once one thing was written, which is no frame. -/
theorem last_words_unheard :
    let h := ((fresh (.ofSection {})).run lastWords).run [.beginStop, .serve 0]
    h.framesOf 1 = [Frame.encode "%0" "bye".toUTF8] ∧
      (h.connection? 1).map (fun c => (c.socket.written.map Item.bytes?, c.writer.isFinished)) =
        some ([none], true) := by
  decide +kernel

end PaneRelay.Hub
