import PaneRelay.Proofs.Hub.Keepalive

/-! # A silent consumer is cut in time

The ticks of a connection come at equal distances from the moment it was made, and each looks how
long ago the consumer was last heard of. Where that is too long the connection ends; else a ping is
queued if there is room for it. Between two ticks nobody looks, so a consumer may be silent for
longer than is allowed, but by less than the time between two ticks.

* `lastHeard`, `beats`: of a history, the moment the consumer was last heard of, and how many ticks
  there were.
* `moments_run`: these two are all that a connection knows of its history.
* `soon_run`: while a connection lives, its next tick comes in time.
* `Judged`: what a tick does, by how long the consumer was silent.
* `silent_cut_in_time`: every tick does this, and nobody lives on who was silent for too long. -/

namespace PaneRelay.Hub

/-- When the consumer was last heard of, if it was at `t` before this. -/
def Happening.heardAfter (t : Nat) : Happening → Nat
  | .heard now => now
  | _ => t

/-- Whether this is a tick. -/
def Happening.isTick : Happening → Bool
  | .tick => true
  | _ => false

namespace Watch

variable {p : HubPolicy} {w v : Watch} {id start : Nat} {hs : List Happening}

/-- When the consumer was last heard of; at first, when the connection was made. -/
def lastHeard (start : Nat) (hs : List Happening) : Nat := hs.foldl Happening.heardAfter start

/-- How many ticks there were. -/
def beats (hs : List Happening) : Nat := hs.countP Happening.isTick

theorem lastHeard_concat (h : Happening) :
    lastHeard start (hs ++ [h]) = h.heardAfter (lastHeard start hs) := by
  simp [lastHeard]

theorem beats_concat (h : Happening) :
    beats (hs ++ [h]) = beats hs + if h.isTick = true then 1 else 0 := by
  simp [beats, List.countP_singleton]

/-! ### The moments of a connection -/

/-- **What a connection knows of its history** is when its consumer was last heard of, and how many
ticks there were. -/
theorem moments_run (hr : (opened p id start).run p hs = some w) :
    w.conn.lastInbound = lastHeard start hs ∧
      w.conn.nextTick = start + (beats hs + 1) * p.pingInterval := by
  refine run_induct (P := fun hs w => w.conn.lastInbound = lastHeard start hs ∧
    w.conn.nextTick = start + (beats hs + 1) * p.pingInterval) ?_ ?_ hr
  · exact ⟨rfl, by simp [opened, Connection.fresh, beats]⟩
  · rintro hs u h v - ⟨hheard, hnext⟩ hv
    rw [lastHeard_concat, beats_concat]
    cases h with
    | tick =>
      have hb := step_tick hv
      refine ⟨hb.lastInbound.trans hheard, ?_⟩
      have hone : (if Happening.tick.isTick = true then 1 else 0) = 1 := rfl
      rw [hb.nextTick, hnext, hone, Nat.add_one_mul (beats hs + 1), Nat.add_assoc]
    | heard now =>
      obtain ⟨-, -, rfl⟩ := step_heard hv
      exact ⟨rfl, hnext⟩
    | aside c =>
      obtain ⟨hc, rfl⟩ := step_aside hv
      exact ⟨hc.lastInbound.trans hheard, hc.nextTick.trans hnext⟩

/-- **While a connection lives its next tick comes in time**: at the last one the silence was not
too long yet. -/
theorem soon_run (hp : 0 < p.pongTimeout) (hr : (opened p id start).run p hs = some w)
    (hl : w.conn.cancelled = false) :
    w.conn.nextTick < w.conn.lastInbound + p.pongTimeout + p.pingInterval := by
  refine run_induct (P := fun _ w => w.conn.cancelled = false →
    w.conn.nextTick < w.conn.lastInbound + p.pongTimeout + p.pingInterval) ?_ ?_ hr hl
  · intro _
    show start + p.pingInterval < start + p.pongTimeout + p.pingInterval
    omega
  · intro hs u h v hu ih hv hl
    cases h with
    | tick =>
      have hb := step_tick hv
      have ht := timely_run hu hb.live
      obtain ⟨-, hcut, -⟩ | ⟨hsilent, -, -⟩ := hb.ends
      · exact absurd (hcut.symm.trans hl) (by decide)
      · have hheard := ht.heard
        have hdue := ht.due
        rw [hb.nextTick, hb.lastInbound]
        unfold silence at hsilent
        omega
    | heard now =>
      obtain ⟨hle, -, rfl⟩ := step_heard hv
      have hheard := (timely_run hu hl).heard
      have hsoon := ih hl
      show u.conn.nextTick < now + p.pongTimeout + p.pingInterval
      omega
    | aside c =>
      obtain ⟨hc, rfl⟩ := step_aside hv
      have hsoon := ih (hc.live hl)
      show c.nextTick < c.lastInbound + p.pongTimeout + p.pingInterval
      rwa [hc.nextTick, hc.lastInbound]

/-! ### What has ended -/

theorem step_over {r : String} {h : Happening} (hc : w.conn.cancelled = true)
    (hr : w.conn.reason = some r) (hs : w.step p h = some v) :
    h.isTick = false ∧ v.conn.cancelled = true ∧ v.conn.reason = some r := by
  cases h with
  | tick => exact absurd ((step_tick hs).live.symm.trans hc) (by decide)
  | heard now =>
    obtain ⟨-, -, rfl⟩ := step_heard hs
    exact ⟨rfl, hc, hr⟩
  | aside c =>
    obtain ⟨ha, rfl⟩ := step_aside hs
    refine ⟨rfl, ha.cancelled hc, ?_⟩
    obtain hsame | ⟨hnone, -, -⟩ := ha.reason
    · exact hsame.trans hr
    · exact absurd (hnone.symm.trans hr) (by simp)

/-- **What has ended stays so**, for its first reason, and there are no more ticks. -/
theorem run_over {r : String} (hc : w.conn.cancelled = true) (hr : w.conn.reason = some r)
    (hs' : w.run p hs = some v) :
    beats hs = 0 ∧ v.conn.cancelled = true ∧ v.conn.reason = some r := by
  refine run_induct (P := fun hs v => beats hs = 0 ∧ v.conn.cancelled = true ∧
    v.conn.reason = some r) ⟨rfl, hc, hr⟩ ?_ hs'
  intro hs u h v _ ⟨hbeats, hc, hr⟩ hv
  obtain ⟨htick, hc', hr'⟩ := step_over hc hr hv
  exact ⟨by simp [beats_concat, hbeats, htick], hc', hr'⟩

/-! ### What a tick does -/

/-- **What a tick does** to a connection whose consumer was last heard of at `last`. If that is too
long ago, the connection ends, by then and for this; else there is one more ping, if there is room. -/
structure Judged (p : HubPolicy) (last : Nat) (w v : Watch) : Prop where
  live : w.conn.cancelled = false
  cut : p.pongTimeout ≤ v.now - last →
    v.conn.cancelled = true ∧ v.conn.reason = some silenceReason ∧
      v.conn.outbox = w.conn.outbox ∧ v.now < last + p.pongTimeout + p.pingInterval
  kept : v.now - last < p.pongTimeout →
    v.conn.cancelled = false ∧ v.conn.reason = none ∧
      v.conn.outbox = { w.conn.outbox with
        log := w.conn.outbox.log ++
          if w.conn.outbox.hasRoom p.sendQueueCapacity = true then [.ping] else [] }

/-- What becomes of the queue at a tick. -/
theorem outbox_keepAlive {c : Connection} (hc : c.cancelled = false) :
    (c.keepAlive p c.nextTick).outbox =
      if p.pongTimeout ≤ c.nextTick - c.lastInbound then c.outbox
      else { c.outbox with
        log := c.outbox.log ++
          if c.outbox.hasRoom p.sendQueueCapacity = true then [.ping] else [] } := by
  rw [Connection.keepAlive, if_pos (by simp [hc]), Connection.beat]
  dsimp only
  split
  · rfl
  · show c.outbox.offer p.sendQueueCapacity .ping = _
    unfold Outbox.offer Outbox.put
    split <;> simp

theorem judged_tick (hp : 0 < p.pongTimeout) (hr : (opened p id start).run p hs = some w)
    (hs' : w.step p .tick = some v) : v.now = start + (beats hs + 1) * p.pingInterval ∧
      w.Judged p (lastHeard start hs) v := by
  have hb := step_tick hs'
  have ht := timely_run hr hb.live
  have hsoon := soon_run hp hr hb.live
  obtain ⟨hheard, hnext⟩ := moments_run hr
  have hbox := outbox_keepAlive (p := p) hb.live
  have hv : v.conn = w.conn.keepAlive p w.conn.nextTick := by
    obtain rfl : _ = v := by simpa [step, hb.live] using hs'
    rfl
  rw [← hv] at hbox
  have hends := hb.ends
  unfold silence at hends
  refine ⟨hb.now.trans hnext, hb.live, fun hlong => ?_, fun hshort => ?_⟩
  · rw [hb.now, ← hheard] at hlong ⊢
    obtain ⟨-, hcut, hreason⟩ | ⟨hlt, -, -⟩ := hends
    · exact ⟨hcut, by rw [hreason, ht.reason]; rfl, hbox.trans (if_pos hlong), hsoon⟩
    · exact absurd hlong (Nat.not_le.mpr hlt)
  · rw [hb.now, ← hheard] at hshort
    obtain ⟨hle, -, -⟩ | ⟨-, hkept, hreason⟩ := hends
    · exact absurd hle (Nat.not_le.mpr hshort)
    · exact ⟨hkept, hreason.trans ht.reason, hbox.trans (if_neg (Nat.not_le.mpr hshort))⟩

end Watch

open Watch

theorem pongTimeout_pos (s : Config.HubSection) : 0 < (HubPolicy.ofSection s).pongTimeout := by
  have hping : 0 < (HubPolicy.ofSection s).pingInterval := by
    show 0 < max s.pingInterval.toNat 1 * 1000
    omega
  exact Nat.lt_of_lt_of_le hping (Nat.le_max_right _ _)

/-- **A silent consumer is cut in time.** Take any history of a connection: its ticks, the moments at
which its consumer was heard of, and everything else that may happen to its queue. Tick number `n`
comes `n` intervals after the connection was made. If nothing was heard for as long as is allowed, it
ends the connection and queues nothing; this comes less than an interval after the silence became
too long, and it is the last tick. At any other tick the connection lives on, and one ping is queued
if there is room, none if there is not. A connection that lives was heard of recently enough, however
the history goes on. -/
theorem silent_cut_in_time (s : Config.HubSection) (id start : Nat) {hs : List Happening}
    {w : Watch} (hr : (opened (.ofSection s) id start).run (.ofSection s) hs = some w) :
    (∀ before after, hs = before ++ .tick :: after →
      ∃ u v, (opened (.ofSection s) id start).run (.ofSection s) before = some u ∧
        u.step (.ofSection s) .tick = some v ∧ v.run (.ofSection s) after = some w ∧
        v.now = start + (beats before + 1) * (HubPolicy.ofSection s).pingInterval ∧
        u.Judged (.ofSection s) (lastHeard start before) v ∧
        ((HubPolicy.ofSection s).pongTimeout ≤ v.now - lastHeard start before →
          beats after = 0 ∧ w.conn.cancelled = true ∧ w.conn.reason = some silenceReason)) ∧
    (w.conn.cancelled = false → w.now < lastHeard start hs +
      (HubPolicy.ofSection s).pongTimeout + (HubPolicy.ofSection s).pingInterval) := by
  have hp := pongTimeout_pos s
  constructor
  · rintro before after rfl
    rw [Watch.run_append] at hr
    obtain ⟨u, hu, hr⟩ := Option.bind_eq_some_iff.mp hr
    obtain ⟨v, hv, hr⟩ := Option.bind_eq_some_iff.mp hr
    obtain ⟨hnow, hjudged⟩ := judged_tick hp hu hv
    refine ⟨u, v, hu, hv, hr, hnow, hjudged, fun hlong => ?_⟩
    obtain ⟨hcut, hreason, -, -⟩ := hjudged.cut hlong
    exact run_over hcut hreason hr
  · intro hl
    have hdue := (timely_run hr hl).due
    have hsoon := soon_run hp hr hl
    rw [(moments_run hr).1] at hsoon
    omega

/-- Ticks every ten seconds, and a silence of twenty-five that is too long. -/
def patient : Config.HubSection := { pingInterval := 10, pongTimeout := 25, sendQueueCapacity := 1 }

/-- A consumer that says one word and never reads. -/
def faint : List Happening := [.tick, .heard 12000, .tick, .tick, .tick]

/-- Its first ping fills the queue, so there are no others; the tick at forty seconds cuts it, which
is before the silence has lasted for thirty-five. -/
theorem silent_cut_at_forty : ∃ w,
    (opened (.ofSection patient) 1 0).run (.ofSection patient) faint = some w ∧
    w.now = 40000 ∧ w.now < 12000 + 25000 + 10000 ∧ w.conn.reason = some silenceReason ∧
    w.conn.outbox.log.length = 1 := by
  obtain ⟨w, hw⟩ := Option.isSome_iff_exists.mp
    (by decide +kernel :
      ((opened (.ofSection patient) 1 0).run (.ofSection patient) faint).isSome = true)
  obtain ⟨u, v, hu, hv, hend, hnow, hjudged, hcut⟩ :=
    (silent_cut_in_time patient 1 0 hw).1 [.tick, .heard 12000, .tick, .tick] [] rfl
  obtain rfl : v = w := by simpa [Watch.run] using hend
  have hlog : ((opened (.ofSection patient) 1 0).run (.ofSection patient)
      [.tick, .heard 12000, .tick, .tick]).map (fun u => u.conn.outbox.log.length) = some 1 := by
    decide +kernel
  rw [hu] at hlog
  have hforty : v.now = 40000 := hnow
  have hlong : (HubPolicy.ofSection patient).pongTimeout ≤
      v.now - lastHeard 0 [.tick, .heard 12000, .tick, .tick] := by
    rw [hforty]
    decide
  obtain ⟨-, hreason, hbox, hsoon⟩ := hjudged.cut hlong
  refine ⟨v, hw, hforty, hsoon, hreason, ?_⟩
  rw [hbox]
  exact Option.some.inj hlog

end PaneRelay.Hub
