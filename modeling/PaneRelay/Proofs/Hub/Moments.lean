import PaneRelay.Proofs.Hub.Faithful

/-! # The work of a moment, deed by deed

At a moment each connection deals with its deadlines, then with a tick, and then its writer goes on as
far as the socket takes what it is handed, or the connection winds down. All of that is some moves of
the connection, and the work of all connections is the moves of one after those of another.

* `Desk.Reaches`, `Desk.serve_reached`: the work of a connection is some of its moves.
* `Office.run_serve`: the work of all connections, and the tearing down of the one that is over, is a
  run of steps. -/

namespace PaneRelay.Hub

/-! ### One connection -/

namespace Desk

/-- Some moves lead to a connection and to counters. -/
def Reaches (p : HubPolicy) (d : Desk) (r : Connection × Metrics) : Prop :=
  ∃ ms e, d.run p ms = some e ∧ (e.conn, e.metrics) = r

variable {p : HubPolicy} {d e : Desk} {now : Nat}

theorem Reaches.refl (d : Desk) : d.Reaches p (d.conn, d.metrics) := ⟨[], d, rfl, rfl⟩

theorem Reaches.cons {r : Connection × Metrics} (m : Move) (hs : d.step p m = some e)
    (he : e.Reaches p r) : d.Reaches p r := by
  obtain ⟨ms, f, hr, hf⟩ := he
  refine ⟨m :: ms, f, ?_, hf⟩
  rw [run_cons, hs]
  exact hr

theorem step_hand (hw : d.conn.writer = .ready) (hr : d.isRetired = false) {m : Outgoing}
    {rest : List Outgoing} (hm : d.conn.outbox.waiting = m :: rest) :
    d.step p (.hand now) = some (note { d with conn := { d.conn with
      outbox := d.conn.outbox.next, writer := .stuck m (now + p.writeTimeout) } }
        (.handed m)) := by
  simp only [step, hw, hm]
  rw [if_neg (by simp [hr])]

theorem step_complete {m : Outgoing} {deadline : Nat} (hw : d.conn.writer = .stuck m deadline)
    (hr : d.isRetired = false) :
    d.step p (.complete now) = some { d.note (.completed m) with
      conn := { d.conn.deliver now m with writer := .ready }
      metrics := Connection.written m d.metrics } := by
  simp only [step]
  rw [sending?_eq_some.mpr ⟨hw, hr⟩]
  rfl

/-- A delivery does not look at the writer. -/
theorem deliver_writer (now : Nat) (m : Outgoing) (c : Connection) (w : Writer) :
    ({ c with writer := w }).deliver now m = { c.deliver now m with writer := w } := by
  cases m with
  | ping =>
    simp only [Connection.deliver]
    split <;> rfl
  | _ => rfl

/-- A writer that has not stopped goes on, also after what is no end. -/
theorem isRetired_note {x : Deed} (hr : d.isRetired = false) (hx : x.isEnd = false) :
    (d.note x).isRetired = false := by
  simp only [isRetired, note_deeds, List.any_append, List.any_cons, List.any_nil, Bool.or_false]
  exact Bool.or_eq_false_iff.mpr ⟨hr, hx⟩

theorem isRetired_of_id {c : Connection} (h : c.id = d.conn.id) (metrics : Metrics) :
    (⟨c, metrics, d.book⟩ : Desk).isRetired = d.isRetired := by
  unfold isRetired
  rw [deeds_of_id h]

theorem drain_reached (rest : List Outgoing) (hw : d.conn.writer = .ready)
    (hr : d.isRetired = false) (hm : d.conn.outbox.waiting = rest) :
    d.Reaches p (Connection.drain p now rest d.conn d.metrics) := by
  induction rest generalizing d with
  | nil => exact .refl d
  | cons m rest ih =>
    have hnext : d.conn.outbox.next.waiting = rest := by
      have htail := congrArg List.tail hm
      rwa [Outbox.waiting, List.tail_drop] at htail
    refine .cons (.hand now) (step_hand hw hr hm) ?_
    -- the desk once the message is handed over, and the connection once it is taken from the queue
    generalize hf : note { d with conn := { d.conn with
      outbox := d.conn.outbox.next, writer := .stuck m (now + p.writeTimeout) } } (.handed m) = f
    have hr' : f.isRetired = false := hf ▸ isRetired_note hr rfl
    have hw' : f.conn.writer = .stuck m (now + p.writeTimeout) := hf ▸ rfl
    have ho : f.conn.outbox = d.conn.outbox.next := hf ▸ rfl
    unfold Connection.drain
    dsimp only
    split
    · refine .cons (.complete now) (step_complete hw' hr') ?_
      obtain ⟨hid, ho', -⟩ := Connection.deliver_parts now m f.conn
      have hdel : { f.conn.deliver now m with writer := .ready } =
          Connection.deliver now m { d.conn with outbox := d.conn.outbox.next } := by
        rw [← deliver_writer, ← hf, ← hw]
        rfl
      have hmet : f.metrics = d.metrics := hf ▸ rfl
      rw [← hdel, ← hmet]
      refine ih rfl ?_ ?_
      · exact (isRetired_of_id (d := f.note (.completed m))
          (c := { f.conn.deliver now m with writer := .ready }) hid _).trans (isRetired_note hr' rfl)
      · show (f.conn.deliver now m).outbox.waiting = rest
        rw [ho', ho, hnext]
    · rw [← hf]
      exact .refl _

theorem step_part (hr : d.isRetired = true) (hw : d.conn.writer.isAtWork = true) :
    d.step p (.part now) = some { d.note .parted with
      conn := { d.conn with writer := .closing d.conn.writer.message? (now + p.writeTimeout) } } :=
  if_pos (Bool.and_eq_true_iff.mpr ⟨hr, hw⟩)

/-- **Winding down.** The writer stops, if it has not, and the close frame is handed over. -/
theorem windDown_reached (hc : d.conn.cancelled = true) :
    d.Reaches p (d.conn.windDown p now, d.metrics) := by
  -- from a writer that has stopped
  have hstopped : ∀ d : Desk, d.isRetired = true →
      d.Reaches p (d.conn.windDown p now, d.metrics) := by
    intro d hr
    unfold Connection.windDown
    cases hw : d.conn.writer with
    | ready =>
      refine .cons (.part now) (step_part hr (by rw [hw]; rfl)) ?_
      rw [hw]
      dsimp only
      split
      · exact .cons (.arrive now) rfl (.refl _)
      · exact .refl _
    | stuck m deadline =>
      refine .cons (.part now) (step_part hr (by rw [hw]; rfl)) ?_
      rw [hw]
      dsimp only
      split
      · refine .cons (.arrive now) rfl ?_
        rw [deliver_writer]
        exact .refl _
      · exact .refl _
    | closing m deadline =>
      cases m with
      | none =>
        dsimp only
        split
        · exact .cons (e := { d with conn := d.conn.close }) (.arrive now)
            (by simp only [step, hw]) (.refl _)
        · exact .refl d
      | some m =>
        dsimp only
        split
        · exact .cons (e := { d with conn := (d.conn.deliver now m).close }) (.arrive now)
            (by simp only [step, hw]) (.refl _)
        · exact .refl d
    | finished => exact .refl d
  cases hr : d.isRetired with
  | true => exact hstopped d hr
  | false =>
    have hleave : d.step p .leave = some (d.note .left) := if_pos (by simp [hc, hr])
    refine .cons .leave hleave (hstopped (d.note .left) ?_)
    simp [isRetired, Deed.isEnd]

/-- A writer has stopped only if the token has fired. -/
theorem isRetired_of_live (h : Kept d.conn d.deeds) (hc : d.conn.cancelled = false) :
    d.isRetired = false := by
  rw [isRetired_eq_false_iff]
  intro x hx
  refine Bool.eq_false_iff.mpr fun he => ?_
  exact absurd (hc.symm.trans (h.fired x hx he)) (by decide)

theorem work_reached (h : Kept d.conn d.deeds) :
    d.Reaches p (d.conn.work p now d.metrics) := by
  unfold Connection.work
  cases hc : d.conn.cancelled with
  | true => exact windDown_reached hc
  | false =>
    have hr := isRetired_of_live h hc
    rw [if_neg (by decide)]
    split
    · next hw => exact drain_reached _ hw hr rfl
    · next m deadline hw =>
      split
      · refine .cons (.complete now) (step_complete hw hr) (drain_reached _ rfl ?_ rfl)
        have hid := (Connection.deliver_parts now m d.conn).1
        exact (isRetired_of_id (d := d.note (.completed m))
          (c := { d.conn.deliver now m with writer := .ready }) hid _).trans (isRetired_note hr rfl)
      · exact .refl d
    · exact .refl d

/-- **Deadlines** are one move, if one of them is due. -/
theorem expire_cases (now : Nat) (h : Kept d.conn d.deeds) :
    d.conn.expire now d.metrics = (d.conn, d.metrics) ∨
      ∃ m e, d.step p m = some e ∧ d.conn.expire now d.metrics = (e.conn, e.metrics) := by
  unfold Connection.expire
  cases hw : d.conn.writer with
  | stuck m deadline =>
    dsimp only
    split
    · next hdue =>
      obtain ⟨hc, hdue⟩ : d.conn.cancelled = false ∧ deadline ≤ now := by simpa using hdue
      have hsend := sending?_eq_some.mpr ⟨hw, isRetired_of_live h hc⟩
      refine .inr ⟨.expire now, { d.note (.timedOut m) with
        conn := d.conn.conclude "write timed out", metrics := d.metrics.writeTimeout }, ?_, rfl⟩
      simp only [step, hsend]
      rw [Option.filter_some, if_pos (by exact decide_eq_true hdue)]
      rfl
    · exact .inl rfl
  | closing m deadline =>
    dsimp only
    split
    · exact .inr ⟨.giveUp, { d with conn := { d.conn with writer := .finished } },
        by simp only [step, hw], rfl⟩
    · exact .inl rfl
  | ready | finished => exact .inl rfl

/-- **The work of a moment** is some moves. -/
theorem serve_reached (now : Nat) (h : Kept d.conn d.deeds) :
    d.Reaches p (d.conn.serve p now d.metrics) := by
  -- once the deadlines are dealt with
  have hrest : ∀ e : Desk, Kept e.conn e.deeds →
      e.Reaches p ((e.conn.keepAlive p now).work p now e.metrics) := fun e he =>
    .cons (.keepAlive now) rfl (work_reached (he.step (m := .keepAlive now) rfl))
  unfold Connection.serve
  rcases expire_cases (p := p) now h with he | ⟨m, e, hs, he⟩
  · rw [he]
    exact hrest d h
  · rw [he]
    exact .cons m hs (hrest e (h.step hs))

end Desk

/-! ### All connections -/

namespace Office

variable {o : Office} {done rest : List Connection} {c : Connection}

/-- Another connection with the same number takes its place. -/
theorem replace_connections {h : Hub} (hc : h.connections = done ++ c :: rest)
    (hn : h.numbers.Nodup) (c' : Connection) :
    (h.modify c.id fun _ => c').connections = done ++ c' :: rest := by
  have hkeep : ∀ l : List Connection, c.id ∉ l.map Connection.id →
      l.map (fun e => if e.id = c.id then c' else e) = l := by
    intro l hl
    refine (List.map_congr_left fun e he => if_neg fun hid => ?_).trans (List.map_id l)
    exact hl (hid ▸ List.mem_map_of_mem he)
  unfold Hub.numbers at hn
  rw [hc, List.map_append, List.map_cons, List.nodup_append, List.nodup_cons] at hn
  obtain ⟨-, ⟨hrest, -⟩, hdone⟩ := hn
  show h.connections.map (fun e => if e.id = c.id then c' else e) = _
  rw [hc, List.map_append, List.map_cons, if_pos rfl, hkeep rest hrest,
    hkeep done fun hmem => hdone c.id hmem c.id (List.mem_cons_self ..) rfl]

theorem connection?_of_split {h : Hub} (hc : h.connections = done ++ c :: rest)
    (hn : h.numbers.Nodup) : h.connection? c.id = some c := by
  cases hf : h.connection? c.id with
  | none =>
    have hmem : c ∈ h.connections := by simp [hc]
    exact absurd (List.find?_eq_none.mp hf c hmem) (by simp)
  | some e => rw [eq_of_connection? hn hf (by simp [hc]) rfl]

/-- **The moves of a connection** are steps of the office. -/
theorem run_own {ms : List Desk.Move} {d : Desk} (hc : o.hub.connections = done ++ c :: rest)
    (hn : o.hub.numbers.Nodup) (hr : (o.desk c).run o.hub.policy ms = some d) :
    o.run (ms.map (.own c.id)) = some
      { hub := { o.hub with connections := done ++ d.conn :: rest, metrics := d.metrics }
        book := d.book } := by
  induction ms generalizing o c with
  | nil =>
    obtain rfl : o.desk c = d := by simpa using hr
    show some o = some { hub := { o.hub with connections := done ++ c :: rest }, book := o.book }
    rw [← hc]
  | cons m ms ih =>
    obtain ⟨f, hs, hr⟩ := Option.bind_eq_some_iff.mp hr
    have hid : f.conn.id = c.id := (step_book hs).1
    have hconn : (o.put c.id f).hub.connections = done ++ f.conn :: rest :=
      replace_connections hc hn f.conn
    have hstep : o.step (.own c.id m) = some (o.put c.id f) := by
      simp only [step, connection?_of_split hc hn, Option.bind_some, hs, Option.map_some]
    have hnum : (o.put c.id f).hub.numbers = o.hub.numbers := by
      unfold Hub.numbers
      rw [hconn, hc]
      simp [hid]
    have hrest := ih (o := o.put c.id f) hconn (hnum ▸ hn) hr
    rw [hid] at hrest
    rw [List.map_cons, run_cons, hstep]
    exact hrest

/-- **The work of some of the connections**, one after the other. -/
theorem run_serveAll (h : Sound o) (now : Nat) (done : List Connection)
    (hc : o.hub.connections = done ++ rest) :
    ∃ ss e, o.run ss = some e ∧ e.hub = { o.hub with
      connections := done ++ (serveAll o.hub.policy now rest o.hub.metrics).1
      metrics := (serveAll o.hub.policy now rest o.hub.metrics).2 } := by
  induction rest generalizing o done with
  | nil =>
    refine ⟨[], o, rfl, ?_⟩
    show o.hub = { o.hub with connections := done ++ [] }
    rw [← hc]
  | cons c rest ih =>
    have hk : Kept (o.desk c).conn (o.desk c).deeds := h.kept c (by simp [hc])
    obtain ⟨ms, d, hr, hd⟩ := Desk.serve_reached (p := o.hub.policy) now hk
    have hown := run_own hc h.nodup hr
    obtain ⟨ss, e, hrun, he⟩ := ih (h.run hown) (done ++ [d.conn]) (by simp)
    refine ⟨ms.map (.own c.id) ++ ss, e, ?_, ?_⟩
    · rw [run_append, hown]
      exact hrun
    · have hserve : c.serve o.hub.policy now o.hub.metrics = (d.conn, d.metrics) := hd.symm
      rw [he]
      simp [serveAll, hserve]

/-- **What a moment brings** is a run of steps: the connections work one after the other, and then the
live one is torn down if it is over. -/
theorem run_serve (h : Sound o) (now : Nat) :
    ∃ ss e, o.run ss = some e ∧ e.hub = o.hub.serve now := by
  obtain ⟨ss, e, hr, he⟩ := run_serveAll h now [] rfl
  have hserve : o.hub.serve now = e.hub.reap := by
    rw [he]
    rfl
  rw [hserve]
  unfold reap
  split
  · exact ⟨ss, e, hr, rfl⟩
  · next id _ =>
    split
    · exact ⟨ss, e, hr, rfl⟩
    · next c _ =>
      split
      · refine ⟨ss ++ [.call (.drop id (c.reason.getD "closed"))],
          { e with hub := e.hub.act (.drop id (c.reason.getD "closed")) }, ?_, rfl⟩
        rw [run_append, hr]
        rfl
      · exact ⟨ss, e, hr, rfl⟩

end Office

end PaneRelay.Hub
