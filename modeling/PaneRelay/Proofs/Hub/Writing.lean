import Mathlib.Algebra.Ring.Nat
import PaneRelay.Proofs.Hub.Farewell

/-! # The writer of a connection, deed by deed

The writer takes a message from the queue and hands it to the socket. Then the socket takes it, or
fails, or takes too long; or the token fires, and the message is left with the socket. Once the
writer has stopped, the close frame is handed to the socket, and nothing after that. Meanwhile
messages are queued, the token fires, the consumer reads or does not, at any moment.

All that the writers do is booked, in the order in which it happens, with the number of the
connection.

* `Deed`, `Desk`: what a writer did, and a connection with the counters and the book.
* `Desk.step`, `Desk.run`: the loops of a connection, one deed after another.
* `Connection.Grown`: what may happen to a connection that is no deed of its writer.
* `Moved`, `moved_of_step`: all that a move can come to.
* `Kept`, `Kept.step`: what the deeds of a connection say of its queue, after every step.
* `Tallied`, `tallied_step`: what the counters say of the book. -/

namespace PaneRelay.Hub

/-- **What the writer of a connection did.** -/
inductive Deed where
  /-- It handed a message to the socket. -/
  | handed (m : Outgoing)
  /-- The socket took the message. -/
  | completed (m : Outgoing)
  /-- The socket failed. -/
  | failed (m : Outgoing)
  /-- The message did not get through in time. -/
  | timedOut (m : Outgoing)
  /-- It stopped because the token has fired. -/
  | left
  /-- The close frame was handed to the socket. -/
  | parted

/-- **What is handed to a socket.** -/
inductive Attempt where
  /-- A message from the queue. -/
  | message (m : Outgoing)
  /-- The close frame. -/
  | close

namespace Deed

/-- What it handed to the socket, if it did that. -/
def attempt? : Deed → Option Attempt
  | handed m => some (.message m)
  | parted => some .close
  | _ => none

/-- The length of the data in a frame that the socket took. -/
def sent? : Deed → Option Nat
  | completed (.frame _ n) => some n
  | _ => none

/-- Whether the writer has stopped by then. -/
def isEnd : Deed → Bool
  | failed _ | timedOut _ | left | parted => true
  | _ => false

/-- Whether the deadline of a message was hit. -/
def isTimeout : Deed → Bool
  | timedOut _ => true
  | _ => false

/-- The counters after a deed. -/
def count : Deed → Metrics → Metrics
  | completed m, metrics => Connection.written m metrics
  | timedOut _, metrics => metrics.writeTimeout
  | _, metrics => metrics

theorem count_counters (d : Deed) (metrics : Metrics) :
    (d.count metrics).framesSent = metrics.framesSent + UInt64.ofNat d.sent?.toList.length ∧
      (d.count metrics).bytesSent = metrics.bytesSent + UInt64.ofNat d.sent?.toList.sum ∧
      (d.count metrics).writeTimeouts =
        metrics.writeTimeouts + UInt64.ofNat (if d.isTimeout then 1 else 0) := by
  cases d with
  | completed m =>
    cases m <;> simp [count, Connection.written, Metrics.sent, sent?, isTimeout]
  | _ => simp [count, Metrics.writeTimeout, sent?, isTimeout]

/-- **What a deed may be**, given those before it. A message is handed over only while the writer is
at work. What comes of it comes right after that. The close frame comes when the writer has stopped,
and only once. -/
def Apt (past : List Deed) : Deed → Prop
  | handed _ | left => ∀ d ∈ past, d.isEnd = false
  | completed m | failed m | timedOut m => past.getLast? = some (handed m)
  | parted => parted ∉ past ∧ ∃ d ∈ past, d.isEnd = true

end Deed

/-- **The deeds of one writer** in a book of all. -/
def deedsOf (book : List (Nat × Deed)) (id : Nat) : List Deed :=
  book.filterMap fun e => if e.1 = id then some e.2 else none

theorem deedsOf_append (b b' : List (Nat × Deed)) (id : Nat) :
    deedsOf (b ++ b') id = deedsOf b id ++ deedsOf b' id := List.filterMap_append

@[simp] theorem deedsOf_self (id : Nat) (d : Deed) : deedsOf [(id, d)] id = [d] := by
  simp [deedsOf]

theorem deedsOf_of_ne {i id : Nat} (h : i ≠ id) (d : Deed) : deedsOf [(i, d)] id = [] := by
  simp [deedsOf, h]

theorem deedsOf_eq_nil {book : List (Nat × Deed)} {id : Nat} (h : ∀ e ∈ book, e.1 ≠ id) :
    deedsOf book id = [] := by
  rw [deedsOf, List.filterMap_eq_nil_iff]
  exact fun e he => if_neg (h e he)

/-- The message that a writer is about. -/
def Writer.message? : Writer → Option Outgoing
  | .stuck m _ => some m
  | .closing m _ => m
  | _ => none

/-- **A connection** at work, with the counters of its hub and the book. -/
structure Desk where
  /-- The connection. -/
  conn : Connection
  /-- The counters of the hub. -/
  metrics : Metrics
  /-- What the writers of the hub did, each deed with the number of the connection. -/
  book : List (Nat × Deed)

namespace Desk

/-- The deeds of the connection's own writer. -/
def deeds (d : Desk) : List Deed := deedsOf d.book d.conn.id

/-- Whether the writer has stopped. -/
def isRetired (d : Desk) : Bool := d.deeds.any Deed.isEnd

/-- The deeds do not depend on more than the number of the connection. -/
theorem deeds_of_id {d : Desk} {c : Connection} (h : c.id = d.conn.id) (metrics : Metrics) :
    (⟨c, metrics, d.book⟩ : Desk).deeds = d.deeds := congrArg (deedsOf d.book) h

theorem isRetired_eq_false_iff {d : Desk} :
    d.isRetired = false ↔ ∀ e ∈ d.deeds, e.isEnd = false := by
  simp [isRetired]

theorem isRetired_eq_true_iff {d : Desk} :
    d.isRetired = true ↔ ∃ e ∈ d.deeds, e.isEnd = true := by
  simp [isRetired]

/-- A deed is booked. -/
def note (d : Desk) (e : Deed) : Desk := { d with book := d.book ++ [(d.conn.id, e)] }

@[simp] theorem note_deeds (d : Desk) (e : Deed) : (d.note e).deeds = d.deeds ++ [e] := by
  show deedsOf (d.book ++ [(d.conn.id, e)]) d.conn.id = _
  rw [deedsOf_append, deedsOf_self]
  rfl

/-- **The message that the writer waits for** the socket to take, with its deadline. -/
def sending? (d : Desk) : Option (Outgoing × Nat) :=
  match d.conn.writer with
  | .stuck m deadline => if d.isRetired then none else some (m, deadline)
  | _ => none

theorem sending?_eq_some {d : Desk} {m : Outgoing} {deadline : Nat} :
    d.sending? = some (m, deadline) ↔
      d.conn.writer = .stuck m deadline ∧ d.isRetired = false := by
  unfold sending?
  split
  · next hw =>
    cases d.isRetired with
    | true => simp
    | false => simp [hw]
  · next hn => exact iff_of_false (by simp) fun h => hn _ _ h.1

/-! ### Steps -/

/-- **What the loops of a connection do**, and its consumer. -/
inductive Move where
  /-- The writer takes a message from the queue and hands it to the socket. -/
  | hand (now : Nat)
  /-- The socket has taken the message. -/
  | complete (now : Nat)
  /-- The socket fails. -/
  | fail (reason : String)
  /-- The deadline of the message is hit. -/
  | expire (now : Nat)
  /-- The writer stops, because the token has fired. -/
  | leave
  /-- The close frame is handed to the socket, behind a message that was left with it. -/
  | part (now : Nat)
  /-- The socket takes the close frame, and what was before it. -/
  | arrive (now : Nat)
  /-- The close frame is given up. -/
  | giveUp
  /-- The keepalive at a moment. -/
  | keepAlive (now : Nat)
  /-- Something is heard of the consumer. -/
  | hear (now : Nat)
  /-- A loop that has ended ends the others. -/
  | conclude (reason : String)
  /-- The consumer reads, or does not, or goes away. -/
  | socket (f : Socket → Socket)

/-- The state after a move, if it can be made. -/
def step (p : HubPolicy) (d : Desk) : Move → Option Desk
  | .hand now =>
    match d.conn.writer, d.conn.outbox.waiting with
    | .ready, m :: _ =>
      if d.isRetired then none
      else some (note { d with conn := { d.conn with
        outbox := d.conn.outbox.next, writer := .stuck m (now + p.writeTimeout) } } (.handed m))
    | _, _ => none
  | .complete now => d.sending?.map fun (m, _) =>
    { d.note (.completed m) with
      conn := { d.conn.deliver now m with writer := .ready }
      metrics := Connection.written m d.metrics }
  | .fail reason => d.sending?.map fun (m, _) =>
    { d.note (.failed m) with conn := d.conn.conclude reason }
  | .expire now => (d.sending?.filter fun (_, deadline) => deadline ≤ now).map fun (m, _) =>
    { d.note (.timedOut m) with
      conn := d.conn.conclude "write timed out", metrics := d.metrics.writeTimeout }
  | .leave => if d.conn.cancelled && !d.isRetired then some (d.note .left) else none
  | .part now =>
    if d.isRetired && d.conn.writer.isAtWork then
      some { d.note .parted with
        conn := { d.conn with writer := .closing d.conn.writer.message? (now + p.writeTimeout) } }
    else none
  | .arrive now =>
    match d.conn.writer with
    | .closing none _ => some { d with conn := d.conn.close }
    | .closing (some m) _ => some { d with conn := (d.conn.deliver now m).close }
    | _ => none
  | .giveUp =>
    match d.conn.writer with
    | .closing _ _ => some { d with conn := { d.conn with writer := .finished } }
    | _ => none
  | .keepAlive now => some { d with conn := d.conn.keepAlive p now }
  | .hear now => some { d with conn := d.conn.hear now }
  | .conclude reason => some { d with conn := d.conn.conclude reason }
  | .socket f => some { d with conn := { d.conn with socket := f d.conn.socket } }

/-- The state after some moves, if they can be made in this order. -/
def run (p : HubPolicy) (d : Desk) (ms : List Move) : Option Desk := ms.foldlM (step p) d

@[simp] theorem run_nil (p : HubPolicy) (d : Desk) : d.run p [] = some d := rfl

@[simp] theorem run_cons (p : HubPolicy) (d : Desk) (m : Move) (ms : List Move) :
    d.run p (m :: ms) = (d.step p m).bind fun e => e.run p ms := rfl

theorem run_append (p : HubPolicy) (d : Desk) (ms ms' : List Move) :
    d.run p (ms ++ ms') = (d.run p ms).bind fun e => e.run p ms' := List.foldlM_append

end Desk

/-! ### What is no deed of the writer -/

/-- **The data of a frame is counted** without its header. -/
def Outgoing.Genuine (m : Outgoing) : Prop :=
  ∀ bytes n, m = .frame bytes n → ∃ p d, bytes = Frame.encode p d ∧ n = d.size

/-- **What may happen to a connection** that its writer has no part in: messages are queued, and the
token may fire. -/
structure Connection.Grown (c c' : Connection) : Prop where
  id : c'.id = c.id
  writer : c'.writer = c.writer
  taken : c'.outbox.taken = c.outbox.taken
  log : ∃ ms, c'.outbox.log = c.outbox.log ++ ms ∧ ∀ m ∈ ms, m.Genuine
  fired : c.cancelled = true → c'.cancelled = true

namespace Connection

theorem Grown.refl (c : Connection) : c.Grown c := ⟨rfl, rfl, rfl, ⟨[], by simp⟩, fun h => h⟩

theorem Grown.trans {c c' c'' : Connection} (a : c.Grown c') (b : c'.Grown c'') : c.Grown c'' := by
  obtain ⟨ms, hl, hm⟩ := a.log
  obtain ⟨ms', hl', hm'⟩ := b.log
  refine ⟨b.id.trans a.id, b.writer.trans a.writer, b.taken.trans a.taken,
    ⟨ms ++ ms', by rw [hl', hl, List.append_assoc], fun m h => ?_⟩, fun h => b.fired (a.fired h)⟩
  rcases List.mem_append.mp h with h | h
  · exact hm m h
  · exact hm' m h

/-- The queue stays as it is. -/
theorem Grown.of_outbox_eq {c c' : Connection} (hi : c'.id = c.id) (hw : c'.writer = c.writer)
    (ho : c'.outbox = c.outbox) (hf : c.cancelled = true → c'.cancelled = true) : c.Grown c' :=
  ⟨hi, hw, by rw [ho], ⟨[], by simp [ho]⟩, hf⟩

theorem grown_put (c : Connection) {n : Nat} {m : Outgoing} (hm : m.Genuine) {outbox : Outbox}
    (ho : c.outbox.put n m = some outbox) : c.Grown { c with outbox } := by
  unfold Outbox.put at ho
  split at ho
  · cases ho
    exact ⟨rfl, rfl, rfl, ⟨[m], rfl, by simpa using hm⟩, fun h => h⟩
  · cases ho

theorem grown_offer (c : Connection) (n : Nat) {m : Outgoing} (hm : m.Genuine) :
    c.Grown { c with outbox := c.outbox.offer n m } := by
  unfold Outbox.offer
  cases ho : c.outbox.put n m with
  | none => exact .refl c
  | some outbox => exact grown_put c hm ho

theorem grown_keepAlive (p : HubPolicy) (now : Nat) (c : Connection) :
    c.Grown (c.keepAlive p now) := by
  unfold keepAlive
  split
  · unfold beat
    dsimp only
    split
    · exact .of_outbox_eq rfl rfl rfl fun _ => rfl
    · obtain ⟨-, -, ht, hl, -⟩ := grown_offer c p.sendQueueCapacity (m := .ping) nofun
      exact ⟨rfl, rfl, ht, hl, fun h => h⟩
  · exact .refl c

theorem deliver_parts (now : Nat) (m : Outgoing) (c : Connection) :
    (c.deliver now m).id = c.id ∧ (c.deliver now m).outbox = c.outbox ∧
      (c.deliver now m).cancelled = c.cancelled :=
  ⟨congrArg Prod.fst (entry_deliver now m c), (deliver_fields now m c).2, (deliver_fields now m c).1⟩

end Connection

/-! ### What a move comes to -/

/-- **All that a move can come to.** -/
inductive Moved (d : Desk) : Desk → Prop where
  /-- It is no deed of the writer. -/
  | aside {c : Connection} : d.conn.Grown c → Moved d { d with conn := c }
  /-- The writer takes the oldest message. -/
  | hand {m : Outgoing} {rest : List Outgoing} (deadline : Nat) : d.conn.writer = .ready →
    d.conn.outbox.waiting = m :: rest → d.isRetired = false →
    Moved d ({ d with conn := { d.conn with
      outbox := d.conn.outbox.next, writer := .stuck m deadline } }.note (.handed m))
  /-- It is ready for the next one. -/
  | complete {m : Outgoing} {deadline : Nat} (now : Nat) : d.conn.writer = .stuck m deadline →
    d.isRetired = false →
    Moved d { d.note (.completed m) with
      conn := { d.conn.deliver now m with writer := .ready }
      metrics := Connection.written m d.metrics }
  /-- A message stops it. -/
  | broke {m : Outgoing} {deadline : Nat} {x : Deed} (reason : String) :
    d.conn.writer = .stuck m deadline → d.isRetired = false → x = .failed m ∨ x = .timedOut m →
    Moved d { d.note x with conn := d.conn.conclude reason, metrics := x.count d.metrics }
  /-- The token stops it. -/
  | left : d.conn.cancelled = true → d.isRetired = false → Moved d (d.note .left)
  /-- The close frame is handed over. -/
  | parted (deadline : Nat) : d.isRetired = true → d.conn.writer.isAtWork = true →
    Moved d { d.note .parted with
      conn := { d.conn with writer := .closing d.conn.writer.message? deadline } }
  /-- The close frame is taken or given up. -/
  | finished {c : Connection} : d.conn.writer.isAtWork = false → c.writer = .finished →
    c.id = d.conn.id → c.outbox = d.conn.outbox → c.cancelled = d.conn.cancelled →
    Moved d { d with conn := c }

/-- **Every move comes to one of these.** -/
theorem moved_of_step {p : HubPolicy} {d e : Desk} {m : Desk.Move} (hs : d.step p m = some e) :
    Moved d e := by
  cases m with
  | hand now =>
    simp only [Desk.step] at hs
    split at hs
    · next m rest hw hm =>
      obtain ⟨hr, hs⟩ := Option.ite_none_left_eq_some.mp hs
      cases hs
      exact .hand _ hw hm (Bool.eq_false_iff.mpr hr)
    · cases hs
  | complete now =>
    obtain ⟨⟨m, deadline⟩, hm, rfl⟩ := Option.map_eq_some_iff.mp hs
    obtain ⟨hw, hr⟩ := Desk.sending?_eq_some.mp hm
    exact .complete now hw hr
  | fail reason =>
    obtain ⟨⟨m, deadline⟩, hm, rfl⟩ := Option.map_eq_some_iff.mp hs
    obtain ⟨hw, hr⟩ := Desk.sending?_eq_some.mp hm
    exact .broke reason hw hr (.inl rfl)
  | expire now =>
    obtain ⟨⟨m, deadline⟩, hm, rfl⟩ := Option.map_eq_some_iff.mp hs
    obtain ⟨hw, hr⟩ := Desk.sending?_eq_some.mp (Option.filter_eq_some_iff.mp hm).1
    exact .broke _ hw hr (.inr rfl)
  | leave =>
    obtain ⟨hc, hs⟩ := Option.ite_none_right_eq_some.mp hs
    cases hs
    obtain ⟨hc, hr⟩ : d.conn.cancelled = true ∧ d.isRetired = false := by simpa using hc
    exact .left hc hr
  | part now =>
    obtain ⟨hr, hs⟩ := Option.ite_none_right_eq_some.mp hs
    obtain ⟨hr, hw⟩ := Bool.and_eq_true_iff.mp hr
    cases hs
    exact .parted _ hr hw
  | arrive now =>
    simp only [Desk.step] at hs
    split at hs
    · next hw =>
      cases hs
      exact .finished (by rw [hw]; rfl) rfl rfl rfl rfl
    · next m _ hw =>
      cases hs
      obtain ⟨hid, ho, hc⟩ := Connection.deliver_parts now m d.conn
      exact .finished (by rw [hw]; rfl) rfl hid ho hc
    · cases hs
  | giveUp =>
    simp only [Desk.step] at hs
    split at hs
    · next hw =>
      cases hs
      exact .finished (by rw [hw]; rfl) rfl rfl rfl rfl
    · cases hs
  | keepAlive now =>
    cases hs
    exact .aside (Connection.grown_keepAlive p now d.conn)
  | hear now =>
    cases hs
    exact .aside (.of_outbox_eq rfl rfl rfl fun hc => hc)
  | conclude reason =>
    cases hs
    exact .aside (.of_outbox_eq rfl rfl rfl fun _ => rfl)
  | socket f =>
    cases hs
    exact .aside (.of_outbox_eq rfl rfl rfl fun hc => hc)

/-- **A move books at most one deed**, and the counters change with it. -/
theorem step_book {p : HubPolicy} {d e : Desk} {m : Desk.Move} (hs : d.step p m = some e) :
    e.conn.id = d.conn.id ∧ (e.book = d.book ∧ e.metrics = d.metrics ∨
      ∃ x, e.book = d.book ++ [(d.conn.id, x)] ∧ e.metrics = x.count d.metrics) := by
  cases moved_of_step hs with
  | aside hg => exact ⟨hg.id, .inl ⟨rfl, rfl⟩⟩
  | @complete m _ now => exact ⟨(Connection.deliver_parts now m d.conn).1, .inr ⟨_, rfl, rfl⟩⟩
  | finished _ _ hid => exact ⟨hid, .inl ⟨rfl, rfl⟩⟩
  | hand | broke | left | parted => exact ⟨rfl, .inr ⟨_, rfl, rfl⟩⟩

/-! ### What the deeds say of the queue -/

/-- **What the deeds of a connection say of its queue.** What was handed to the socket is what was
taken from the queue, and after that the close frame, if it has come to that. -/
structure Kept (c : Connection) (ds : List Deed) : Prop where
  taken : c.outbox.taken ≤ c.outbox.log.length
  attempts : ds.filterMap Deed.attempt? =
    (c.outbox.log.take c.outbox.taken).map .message ++ if c.writer.isAtWork then [] else [.close]
  sending : ∀ m deadline, c.writer = .stuck m deadline → (∀ d ∈ ds, d.isEnd = false) →
    ds.getLast? = some (.handed m)
  fired : ∀ d ∈ ds, d.isEnd = true → c.cancelled = true
  parted : c.writer.isAtWork = false ↔ .parted ∈ ds
  apt : ∀ past d, past ++ [d] <+: ds → d.Apt past
  genuine : ∀ m ∈ c.outbox.log, m.Genuine

namespace Kept

variable {c c' : Connection} {ds : List Deed}

theorem fresh (p : HubPolicy) (id now : Nat) : Kept (.fresh p id now) [] where
  taken := Nat.le_refl 0
  attempts := rfl
  sending m deadline h := by cases h
  fired d h := absurd h List.not_mem_nil
  parted := iff_of_false (fun h => by cases h) List.not_mem_nil
  apt past d h := by simp at h
  genuine m h := absurd h List.not_mem_nil

theorem grown (h : Kept c ds) (hg : c.Grown c') : Kept c' ds := by
  obtain ⟨ms, hlog, hms⟩ := hg.log
  refine ⟨?_, ?_, ?_, fun d hd he => hg.fired (h.fired d hd he), ?_, h.apt, ?_⟩
  · rw [hg.taken, hlog, List.length_append]
    exact Nat.le_add_right_of_le h.taken
  · rw [hg.taken, hlog, List.take_append_of_le_length h.taken, hg.writer]
    exact h.attempts
  · rw [hg.writer]
    exact h.sending
  · rw [hg.writer]
    exact h.parted
  · rw [hlog]
    intro m hm
    rcases List.mem_append.mp hm with hm | hm
    · exact h.genuine m hm
    · exact hms m hm

/-- The writer takes the oldest message. -/
theorem hand (h : Kept c ds) (hw : c.writer = .ready) {m : Outgoing} {rest : List Outgoing}
    (hm : c.outbox.waiting = m :: rest) (hr : ∀ d ∈ ds, d.isEnd = false) (deadline : Nat) :
    Kept { c with outbox := c.outbox.next, writer := .stuck m deadline } (ds ++ [.handed m]) := by
  have hget : c.outbox.log[c.outbox.taken]? = some m := by
    rw [← List.head?_drop]
    exact congrArg List.head? hm
  have hpart : .parted ∉ ds := fun hp => absurd (hr _ hp) (by decide)
  refine ⟨?_, ?_, ?_, ?_, ?_, forall_prefix_concat h.apt hr, h.genuine⟩
  · exact (List.getElem?_eq_some_iff.mp hget).1
  · have ha := h.attempts
    rw [hw] at ha
    show _ = (c.outbox.log.take (c.outbox.taken + 1)).map Attempt.message ++ _
    rw [List.filterMap_append, ha, List.take_add_one, hget]
    simp [Writer.isAtWork, Deed.attempt?]
  · intro m' deadline' hs _
    cases hs
    simp
  · intro d hd he
    rcases List.mem_append.mp hd with hd | hd
    · exact h.fired d hd he
    · cases List.mem_singleton.mp hd
      cases he
  · exact iff_of_false (by simp [Writer.isAtWork]) (by simpa using hpart)

/-- The writer is done with the message: it is ready for the next one. -/
theorem complete (h : Kept c ds) {m : Outgoing} {deadline : Nat} (hw : c.writer = .stuck m deadline)
    (hr : ∀ d ∈ ds, d.isEnd = false) (now : Nat) :
    Kept { c.deliver now m with writer := .ready } (ds ++ [.completed m]) := by
  obtain ⟨-, ho, hc⟩ := Connection.deliver_parts now m c
  have hwork : c.writer.isAtWork = true := by rw [hw]; rfl
  have hpart : .parted ∉ ds := fun hp => absurd (hr _ hp) (by decide)
  refine ⟨?_, ?_, nofun, ?_, ?_, forall_prefix_concat h.apt (h.sending m deadline hw hr), ?_⟩
  · exact ho ▸ h.taken
  · show _ = ((c.deliver now m).outbox.log.take (c.deliver now m).outbox.taken).map _ ++ _
    rw [ho, List.filterMap_append, h.attempts, hwork]
    simp [Writer.isAtWork, Deed.attempt?]
  · intro d hd he
    show (c.deliver now m).cancelled = true
    rw [hc]
    rcases List.mem_append.mp hd with hd | hd
    · exact h.fired d hd he
    · cases List.mem_singleton.mp hd
      cases he
  · exact iff_of_false (by simp [Writer.isAtWork]) (by simpa using hpart)
  · show ∀ m' ∈ (c.deliver now m).outbox.log, m'.Genuine
    rw [ho]
    exact h.genuine

/-- The writer stops. -/
theorem stop (h : Kept c ds) (hw : c.writer.isAtWork = true) {d : Deed} (hend : d.isEnd = true)
    (hno : d.attempt? = none) (hd : d.Apt ds) (hc : c.cancelled = true) : Kept c (ds ++ [d]) := by
  refine ⟨h.taken, ?_, ?_, fun _ _ _ => hc, ?_, forall_prefix_concat h.apt hd, h.genuine⟩
  · rw [List.filterMap_append, h.attempts, hw, List.filterMap_cons_none hno]
    simp
  · intro m deadline _ hr
    exact absurd (hr d (by simp)) (by simp [hend])
  · rw [h.parted, List.mem_append, List.mem_singleton, or_iff_left]
    rintro rfl
    cases hno

/-- The close frame is handed over. -/
theorem part (h : Kept c ds) (hw : c.writer.isAtWork = true) (hr : ∃ d ∈ ds, d.isEnd = true)
    (m : Option Outgoing) (deadline : Nat) :
    Kept { c with writer := .closing m deadline } (ds ++ [.parted]) := by
  have hpart : .parted ∉ ds := fun hp => absurd (h.parted.mpr hp) (by simp [hw])
  obtain ⟨d, hd, he⟩ := hr
  refine ⟨h.taken, ?_, nofun, fun _ _ _ => h.fired d hd he, ?_,
    forall_prefix_concat h.apt ⟨hpart, d, hd, he⟩, h.genuine⟩
  · rw [List.filterMap_append, h.attempts, hw]
    simp [Writer.isAtWork, Deed.attempt?]
  · exact iff_of_true rfl (by simp)

/-- The close frame was taken or given up. -/
theorem finish (h : Kept c ds) (hw : c.writer.isAtWork = false) (ho : c'.outbox = c.outbox)
    (hc : c'.cancelled = c.cancelled) (hw' : c'.writer = .finished) : Kept c' ds := by
  have hwork : c'.writer.isAtWork = c.writer.isAtWork := by rw [hw, hw']; rfl
  refine ⟨by rw [ho]; exact h.taken, by rw [ho, hwork]; exact h.attempts, ?_,
    by rw [hc]; exact h.fired, by rw [hwork]; exact h.parted, h.apt, by rw [ho]; exact h.genuine⟩
  rw [hw']
  nofun

/-- **Every step keeps it.** -/
theorem step {p : HubPolicy} {d e : Desk} {m : Desk.Move} (h : Kept d.conn d.deeds)
    (hs : d.step p m = some e) : Kept e.conn e.deeds := by
  cases moved_of_step hs with
  | aside hg =>
    rw [Desk.deeds_of_id hg.id]
    exact h.grown hg
  | hand deadline hw hm hr =>
    rw [Desk.note_deeds]
    exact h.hand hw hm (Desk.isRetired_eq_false_iff.mp hr) deadline
  | @complete m _ now hw hr =>
    have hid := (Connection.deliver_parts now m d.conn).1
    rw [Desk.deeds_of_id (d := d.note (.completed m))
      (c := { d.conn.deliver now m with writer := .ready }) hid, Desk.note_deeds]
    exact h.complete hw (Desk.isRetired_eq_false_iff.mp hr) now
  | @broke m _ x reason hw hr hx =>
    have hg : d.conn.Grown (d.conn.conclude reason) := .of_outbox_eq rfl rfl rfl fun _ => rfl
    have hlast := h.sending m _ hw (Desk.isRetired_eq_false_iff.mp hr)
    show Kept (d.conn.conclude reason) (d.note x).deeds
    rw [Desk.note_deeds]
    obtain rfl | rfl := hx <;>
      exact (h.grown hg).stop (by rw [hg.writer, hw]; rfl) rfl rfl hlast rfl
  | left hc hr =>
    have hr := Desk.isRetired_eq_false_iff.mp hr
    have hwork : d.conn.writer.isAtWork = true := by
      refine Bool.of_not_eq_false fun hw => ?_
      exact absurd (hr _ (h.parted.mp hw)) (by decide)
    rw [Desk.note_deeds]
    exact h.stop hwork rfl rfl hr hc
  | parted deadline hr hw =>
    show Kept _ (d.note .parted).deeds
    rw [Desk.note_deeds]
    exact h.part hw (Desk.isRetired_eq_true_iff.mp hr) _ _
  | finished hwork hw hid ho hc =>
    rw [Desk.deeds_of_id hid]
    exact h.finish hwork ho hc hw

end Kept

/-! ### What the counters say of the book -/

/-- The lengths of the data in all frames that a socket took. -/
def sentOf (book : List (Nat × Deed)) : List Nat := book.filterMap fun e => e.2.sent?

/-- **The counters agree with the book.** -/
structure Tallied (book : List (Nat × Deed)) (metrics : Metrics) : Prop where
  frames : metrics.framesSent = UInt64.ofNat (sentOf book).length
  bytes : metrics.bytesSent = UInt64.ofNat (sentOf book).sum
  timeouts : metrics.writeTimeouts = UInt64.ofNat (book.countP fun e => e.2.isTimeout)

theorem Tallied.concat {book : List (Nat × Deed)} {metrics : Metrics} (h : Tallied book metrics)
    (id : Nat) (d : Deed) : Tallied (book ++ [(id, d)]) (d.count metrics) := by
  obtain ⟨hf, hb, ht⟩ := d.count_counters metrics
  have hsent : sentOf (book ++ [(id, d)]) = sentOf book ++ d.sent?.toList := by
    unfold sentOf
    rw [List.filterMap_append, List.filterMap_cons]
    cases d.sent? <;> rfl
  have htimes : (book ++ [(id, d)]).countP (fun e => e.2.isTimeout) =
      book.countP (fun e => e.2.isTimeout) + if d.isTimeout then 1 else 0 := by
    rw [List.countP_append, List.countP_singleton]
  constructor
  · rw [hsent, List.length_append, UInt64.ofNat_add, ← h.frames, hf]
  · rw [hsent, List.sum_append, UInt64.ofNat_add, ← h.bytes, hb]
  · rw [htimes, UInt64.ofNat_add, ← h.timeouts, ht]

/-- **Every step keeps the counters right.** -/
theorem tallied_step {p : HubPolicy} {d e : Desk} {m : Desk.Move} (h : Tallied d.book d.metrics)
    (hs : d.step p m = some e) : Tallied e.book e.metrics := by
  obtain ⟨-, ⟨hb, hm⟩ | ⟨x, hb, hm⟩⟩ := step_book hs
  · rw [hb, hm]
    exact h
  · rw [hb, hm]
    exact h.concat d.conn.id x

end PaneRelay.Hub
