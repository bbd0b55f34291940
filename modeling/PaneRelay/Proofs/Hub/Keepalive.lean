import Mathlib.Data.List.DropRight
import Mathlib.Data.List.Induction
import PaneRelay.Hub.Session

/-! # Who is cut for silence

A ping is queued at a tick, and the answer to it is looked for at the next one. Before the first
tick there was no ping, but that tick looks for something all the same: for a word since the
connection was made. So a consumer that answers every ping in time is still cut if the silence
allowed is no longer than the time between two ticks, which the floors of a configuration do not
rule out.

* `Happening`, `Watch.run`: the ticks of a connection, the moments at which its consumer is heard
  of, and everything else.
* `serve_run`: what a moment brings to a connection is such a run.
* `cut_iff`: whoever answers what, silence that is too long at a tick is what cuts.
* `recent_of_mem_ticks`: a consumer that answers was heard of since the tick before.
* `responsive_cut_iff`: when a consumer that answers is cut.
* `first_tick_cuts`: one is cut that was never sent a ping.
* `silence_le_of_mem_ticks`: how long a consumer that owes nothing may have been silent, given how
  many ticks found the queue full; `full_queue_cuts`: it may be that long, and then it is cut. -/

namespace PaneRelay.Hub

/-- Why a connection ends whose consumer is silent. -/
def silenceReason : String := "keepalive timeout"

/-- **What the keepalive has no part in.** Nothing is heard of the consumer and no tick is served;
the token may fire, with a first reason that is not silence. -/
structure Connection.Aside (c c' : Connection) : Prop where
  lastInbound : c'.lastInbound = c.lastInbound
  nextTick : c'.nextTick = c.nextTick
  cancelled : c.cancelled = true → c'.cancelled = true
  reason : c'.reason = c.reason ∨
    c.reason = none ∧ c'.cancelled = true ∧ c'.reason ≠ some silenceReason

theorem Connection.Aside.live {c c' : Connection} (h : c.Aside c') (hl : c'.cancelled = false) :
    c.cancelled = false := by
  cases hc : c.cancelled with
  | false => rfl
  | true => exact (h.cancelled hc).symm.trans hl

instance (c c' : Connection) : Decidable (c.Aside c') :=
  decidable_of_iff ((c'.lastInbound = c.lastInbound ∧ c'.nextTick = c.nextTick) ∧
      (c.cancelled = true → c'.cancelled = true) ∧ (c'.reason = c.reason ∨
        c.reason = none ∧ c'.cancelled = true ∧ c'.reason ≠ some silenceReason))
    ⟨fun ⟨⟨a, b⟩, d, e⟩ => ⟨a, b, d, e⟩, fun ⟨a, b, d, e⟩ => ⟨⟨a, b⟩, d, e⟩⟩

/-- **What happens to a connection**, as the keepalive sees it. -/
inductive Happening where
  /-- A tick, at the moment it is due. -/
  | tick
  /-- Something is heard of the consumer at a moment. -/
  | heard (now : Nat)
  /-- Anything else, and what the connection is after it. -/
  | aside (c : Connection)

/-- **A connection under watch.** -/
structure Watch where
  /-- The connection. -/
  conn : Connection
  /-- The present moment. -/
  now : Nat
  /-- Whether a ping was queued and nothing was heard since. -/
  owed : Bool := false

namespace Watch

variable {p : HubPolicy} {u v w : Watch}

/-- How long the consumer has been silent when the next tick comes. -/
def silence (w : Watch) : Nat := w.conn.nextTick - w.conn.lastInbound

/-- **One happening.** Time does not go back, and passes no tick that is not served. -/
def step (p : HubPolicy) (w : Watch) : Happening → Option Watch
  | .tick =>
    if w.conn.cancelled then none
    else some { conn := w.conn.keepAlive p w.conn.nextTick, now := w.conn.nextTick
                owed := w.owed || w.conn.outbox.hasRoom p.sendQueueCapacity }
  | .heard now =>
    if w.now ≤ now ∧ (w.conn.cancelled = true ∨ now ≤ w.conn.nextTick) then
      some { conn := w.conn.hear now, now }
    else none
  | .aside c => if w.conn.Aside c then some { w with conn := c } else none

/-- **Any number of happenings.** -/
def run (p : HubPolicy) (w : Watch) (hs : List Happening) : Option Watch := hs.foldlM (step p) w

theorem run_append (hs hs' : List Happening) :
    w.run p (hs ++ hs') = (w.run p hs).bind fun v => v.run p hs' := List.foldlM_append

theorem run_concat {hs : List Happening} {h : Happening} :
    w.run p (hs ++ [h]) = (w.run p hs).bind fun v => v.step p h := by
  rw [run_append]
  congr 1
  funext v
  exact bind_pure (v.step p h)

/-- **A connection that was just made.** -/
def opened (p : HubPolicy) (id now : Nat) : Watch := { conn := .fresh p id now, now }

/-- What was there before a happening that is a tick. -/
def before (w : Watch) : Happening → List Watch
  | .tick => [w]
  | _ => []

/-- **What was there before each tick** of a run. -/
def ticks (p : HubPolicy) (w : Watch) : List Happening → List Watch
  | [] => []
  | h :: hs => w.before h ++ ((w.step p h).map fun v => v.ticks p hs).getD []

theorem ticks_concat {hs : List Happening} (h : Happening) (hr : w.run p hs = some v) :
    w.ticks p (hs ++ [h]) = w.ticks p hs ++ v.before h := by
  induction hs generalizing w with
  | nil =>
    obtain rfl : w = v := by simpa [run] using hr
    cases hw : w.step p h <;> simp [ticks, hw]
  | cons a hs ih =>
    obtain ⟨u, hu, hr⟩ := Option.bind_eq_some_iff.mp hr
    simp [ticks, hu, ih hr]

/-- **What holds at first, and stays with every happening**, holds after a run. -/
theorem run_induct {P : List Happening → Watch → Prop} (hnil : P [] w)
    (hstep : ∀ hs u h v, w.run p hs = some u → P hs u → u.step p h = some v → P (hs ++ [h]) v)
    {hs : List Happening} (hr : w.run p hs = some v) : P hs v := by
  induction hs using List.reverseRecOn generalizing v with
  | nil =>
    obtain rfl : w = v := by simpa [run] using hr
    exact hnil
  | append_singleton hs h ih =>
    rw [run_concat] at hr
    obtain ⟨u, hu, hv⟩ := Option.bind_eq_some_iff.mp hr
    exact hstep hs u h v hu (ih hu) hv

/-! ### The work of a moment -/

/-- **Whether it may be that moment:** it is not over, and no tick was due before it. -/
structure UpTo (now : Nat) (w : Watch) : Prop where
  le : w.now ≤ now
  due : w.conn.cancelled = false → now ≤ w.conn.nextTick

/-- Happenings of one moment lead to a connection. -/
def Brings (p : HubPolicy) (now : Nat) (w : Watch) (c : Connection) : Prop :=
  ∃ hs v, w.run p hs = some v ∧ v.UpTo now ∧ v.conn = c

variable {now : Nat}

theorem Brings.refl (hw : w.UpTo now) : w.Brings p now w.conn := ⟨[], w, rfl, hw, rfl⟩

theorem Brings.trans {c c' : Connection} (h : w.Brings p now c)
    (h' : ∀ v : Watch, v.conn = c → v.UpTo now → v.Brings p now c') : w.Brings p now c' := by
  obtain ⟨hs, v, hr, hv, hc⟩ := h
  obtain ⟨hs', u, hr', hu, hc'⟩ := h' v hc hv
  refine ⟨hs ++ hs', u, ?_, hu, hc'⟩
  rw [run_append, hr]
  exact hr'

theorem brings_of_step {h : Happening} (hs : w.step p h = some v) (hv : v.UpTo now) :
    w.Brings p now v.conn := by
  refine ⟨[h], v, ?_, hv, rfl⟩
  show (w.step p h).bind _ = some v
  rw [hs]
  rfl

theorem brings_aside {c : Connection} (hc : w.conn.Aside c) (hw : w.UpTo now) :
    w.Brings p now c := by
  refine brings_of_step (h := .aside c) (if_pos hc) ⟨hw.le, fun hl => ?_⟩
  rw [hc.nextTick]
  exact hw.due (hc.live hl)

theorem brings_heard (hw : w.UpTo now) : w.Brings p now (w.conn.hear now) := by
  refine brings_of_step (h := .heard now) (if_pos ⟨hw.le, ?_⟩) ⟨Nat.le_refl now, hw.due⟩
  cases hc : w.conn.cancelled with
  | false => exact .inr (hw.due hc)
  | true => exact .inl rfl

end Watch

namespace Connection

theorem Aside.of_end_eq {c c' : Connection} (hl : c'.lastInbound = c.lastInbound)
    (ht : c'.nextTick = c.nextTick) (hc : c'.cancelled = c.cancelled)
    (hr : c'.reason = c.reason) : c.Aside c' := ⟨hl, ht, fun h => hc.trans h, .inl hr⟩

theorem aside_conclude (c : Connection) {reason : String} (h : reason ≠ silenceReason) :
    c.Aside (c.conclude reason) := by
  refine ⟨rfl, rfl, fun _ => rfl, ?_⟩
  cases hr : c.reason with
  | none => exact .inr ⟨rfl, rfl, by simpa [conclude, hr] using h⟩
  | some r => exact .inl (by simp [conclude, hr])

theorem nextTick_keepAlive {p : HubPolicy} {c : Connection} (hc : c.cancelled = false) :
    (c.keepAlive p c.nextTick).nextTick = c.nextTick + p.pingInterval := by
  have ht : tickAfter p.pingInterval c.nextTick c.nextTick = c.nextTick + p.pingInterval :=
    if_neg (by omega)
  rw [keepAlive, if_pos (by simp [hc]), beat]
  split <;> exact ht

theorem aside_expire (now : Nat) (c : Connection) (metrics : Metrics) :
    c.Aside (c.expire now metrics).1 := by
  have hrefl : c.Aside c := .of_end_eq rfl rfl rfl rfl
  unfold expire
  split
  · split
    · exact c.aside_conclude (by decide)
    · exact hrefl
  · dsimp only
    split
    · exact .of_end_eq rfl rfl rfl rfl
    · exact hrefl
  · exact hrefl

end Connection

open Connection Watch

section
variable {p : HubPolicy} {w : Watch} {now : Nat}

/-- What leaves alone the moments of a connection and its end. -/
theorem brings_same {c : Connection} (hw : w.UpTo now) (hl : c.lastInbound = w.conn.lastInbound)
    (ht : c.nextTick = w.conn.nextTick) (hc : c.cancelled = w.conn.cancelled)
    (hr : c.reason = w.conn.reason) : w.Brings p now c :=
  brings_aside (.of_end_eq hl ht hc hr) hw

theorem deliver_brings (m : Outgoing) (hw : w.UpTo now) :
    w.Brings p now (w.conn.deliver now m) := by
  cases m with
  | ping =>
    show w.Brings p now (if _ then _ else _)
    split
    · exact brings_heard hw
    · exact .refl hw
  | _ => exact brings_same hw rfl rfl rfl rfl

theorem drain_brings (ms : List Outgoing) (metrics : Metrics) (hw : w.UpTo now) :
    w.Brings p now (drain p now ms w.conn metrics).1 := by
  induction ms generalizing w metrics with
  | nil => exact .refl hw
  | cons m ms ih =>
    refine (brings_same (c := { w.conn with outbox := w.conn.outbox.next }) hw
      rfl rfl rfl rfl).trans fun v hv hu => ?_
    rw [drain, ← hv]
    split
    · refine (deliver_brings m hu).trans fun u hu' hu => ?_
      rw [← hu']
      exact ih _ hu
    · exact brings_same hu rfl rfl rfl rfl

theorem windDown_brings (hw : w.UpTo now) : w.Brings p now (w.conn.windDown p now) := by
  have hclose (m : Outgoing) : w.Brings p now (w.conn.deliver now m).close :=
    (deliver_brings m hw).trans fun v hv hu => hv ▸ brings_same hu rfl rfl rfl rfl
  unfold windDown
  split
  · split <;> exact brings_same hw rfl rfl rfl rfl
  · split
    · exact hclose _
    · exact brings_same hw rfl rfl rfl rfl
  · split
    · split <;> exact brings_same hw rfl rfl rfl rfl
    · split
      · exact hclose _
      · exact .refl hw
  · exact .refl hw

theorem work_brings (metrics : Metrics) (hw : w.UpTo now) :
    w.Brings p now (w.conn.work p now metrics).1 := by
  unfold work
  split
  · exact windDown_brings hw
  · split
    · exact drain_brings _ metrics hw
    · next m _ _ =>
      split
      · refine (deliver_brings m hw).trans fun v hv hu => ?_
        rw [← hv]
        refine (brings_same (c := { v.conn with writer := .ready }) hu rfl rfl rfl rfl).trans
          fun u hu' hu => ?_
        rw [← hu']
        exact drain_brings _ _ hu
      · exact .refl hw
    · exact .refl hw

theorem keepAlive_brings (hw : w.UpTo now) : w.Brings p now (w.conn.keepAlive p now) := by
  by_cases hk : w.conn.cancelled = false ∧ w.conn.nextTick ≤ now
  · obtain ⟨hc, hle⟩ := hk
    obtain rfl : w.conn.nextTick = now := Nat.le_antisymm hle (hw.due hc)
    refine brings_of_step (h := .tick) (if_neg (by simp [hc])) ⟨Nat.le_refl _, fun _ => ?_⟩
    rw [nextTick_keepAlive hc]
    exact Nat.le_add_right _ _
  · rw [keepAlive, if_neg (by simpa using hk)]
    exact .refl hw

/-- **What a moment brings** to a connection is a run of happenings, if no tick before it was
missed. -/
theorem serve_run (metrics : Metrics) (hw : w.UpTo now) :
    w.Brings p now (w.conn.serve p now metrics).1 := by
  refine (brings_aside (w.conn.aside_expire now metrics) hw).trans fun v hv hu => ?_
  show v.Brings p now (work p now (keepAlive p now (w.conn.expire now metrics).1) _).1
  rw [← hv]
  refine (keepAlive_brings hu).trans fun u hu' hu => ?_
  rw [← hu']
  exact work_brings _ hu

end

namespace Watch

variable {p : HubPolicy} {w v : Watch}

/-! ### What cuts -/

/-- **What a tick does**: it ends the connection, or a ping is owed if there was room for it. -/
structure Beat (p : HubPolicy) (w v : Watch) : Prop where
  live : w.conn.cancelled = false
  now : v.now = w.conn.nextTick
  nextTick : v.conn.nextTick = w.conn.nextTick + p.pingInterval
  lastInbound : v.conn.lastInbound = w.conn.lastInbound
  owed : v.owed = (w.owed || w.conn.outbox.hasRoom p.sendQueueCapacity)
  ends : p.pongTimeout ≤ w.silence ∧ v.conn.cancelled = true ∧
      v.conn.reason = (w.conn.reason <|> some silenceReason) ∨
    w.silence < p.pongTimeout ∧ v.conn.cancelled = false ∧ v.conn.reason = w.conn.reason

theorem step_tick (hs : w.step p .tick = some v) : w.Beat p v := by
  cases hc : w.conn.cancelled with
  | true => simp [step, hc] at hs
  | false =>
    obtain rfl : _ = v := by simpa [step, hc] using hs
    have hk : w.conn.keepAlive p w.conn.nextTick = w.conn.beat p w.conn.nextTick :=
      if_pos (by simp [hc])
    refine ⟨hc, rfl, nextTick_keepAlive hc, ?_, rfl, ?_⟩ <;> simp only [hk, beat] <;> split
    · rfl
    · rfl
    · next h => exact .inl ⟨h, rfl, rfl⟩
    · next h => exact .inr ⟨Nat.lt_of_not_le h, hc, rfl⟩

theorem step_heard {now : Nat} (hs : w.step p (.heard now) = some v) :
    w.now ≤ now ∧ (w.conn.cancelled = true ∨ now ≤ w.conn.nextTick) ∧
      v = { conn := w.conn.hear now, now } := by
  obtain ⟨⟨hle, hdue⟩, hv⟩ := Option.ite_none_right_eq_some.mp hs
  exact ⟨hle, hdue, (Option.some.inj hv).symm⟩

theorem step_aside {c : Connection} (hs : w.step p (.aside c) = some v) :
    w.conn.Aside c ∧ v = { w with conn := c } := by
  obtain ⟨hc, hv⟩ := Option.ite_none_right_eq_some.mp hs
  exact ⟨hc, (Option.some.inj hv).symm⟩

/-- **What holds of a connection that does not end**: there is no reason why it should, and the next
tick is due within an interval. -/
structure Timely (p : HubPolicy) (w : Watch) : Prop where
  reason : w.conn.reason = none
  heard : w.conn.lastInbound ≤ w.now
  due : w.now ≤ w.conn.nextTick
  soon : w.conn.nextTick ≤ w.now + p.pingInterval

theorem step_timely {h : Happening} (hw : w.conn.cancelled = false → w.Timely p)
    (hs : w.step p h = some v) (hl : v.conn.cancelled = false) : v.Timely p := by
  cases h with
  | tick =>
    have hb := step_tick hs
    have ht := hw hb.live
    obtain ⟨-, hc, -⟩ | ⟨-, -, hr⟩ := hb.ends
    · exact absurd (hc.symm.trans hl) (by decide)
    · refine ⟨hr.trans ht.reason, ?_, ?_, ?_⟩
      · rw [hb.lastInbound, hb.now]
        exact Nat.le_trans ht.heard ht.due
      · rw [hb.now, hb.nextTick]
        exact Nat.le_add_right _ _
      · exact Nat.le_of_eq (by rw [hb.now, hb.nextTick])
  | heard now =>
    obtain ⟨hle, hdue, rfl⟩ := step_heard hs
    have ht := hw hl
    have hlive : w.conn.cancelled = false := hl
    have hdue : now ≤ w.conn.nextTick := hdue.resolve_left (by simp [hlive])
    exact ⟨ht.reason, Nat.le_refl now, hdue, Nat.le_trans ht.soon (Nat.add_le_add_right hle _)⟩
  | aside c =>
    obtain ⟨hc, rfl⟩ := step_aside hs
    have ht := hw (hc.live hl)
    refine ⟨?_, ?_, ?_, ?_⟩
    · obtain hr | ⟨-, hcan, -⟩ := hc.reason
      · exact hr.trans ht.reason
      · exact absurd hcan (by simpa using hl)
    · exact hc.lastInbound ▸ ht.heard
    · exact hc.nextTick ▸ ht.due
    · exact hc.nextTick ▸ ht.soon

/-- A happening gives silence as the reason only at a tick that finds too much of it. -/
theorem step_silence {h : Happening} (hw : w.conn.cancelled = false → w.Timely p)
    (hs : w.step p h = some v) : v.conn.reason = some silenceReason ↔
      w.conn.reason = some silenceReason ∨ ∃ u ∈ w.before h, p.pongTimeout ≤ u.silence := by
  cases h with
  | tick =>
    have hb := step_tick hs
    have hr := (hw hb.live).reason
    obtain ⟨hle, -, hv⟩ | ⟨hlt, -, hv⟩ := hb.ends
    · simp [before, hv, hr, hle]
    · simp [before, hv, hr, hlt]
  | heard now =>
    obtain ⟨-, -, rfl⟩ := step_heard hs
    simp [before, hear]
  | aside c =>
    obtain ⟨hc, rfl⟩ := step_aside hs
    obtain hr | ⟨hr, -, hne⟩ := hc.reason
    · simp [before, hr]
    · simp [before, hr, hne]

variable {id start : Nat} {hs : List Happening}

theorem timely_run (hr : (opened p id start).run p hs = some w) :
    w.conn.cancelled = false → w.Timely p := by
  refine run_induct (P := fun _ v => v.conn.cancelled = false → v.Timely p) (fun _ => ?_)
    (fun _ _ _ _ _ hu hs hl => step_timely hu hs hl) hr
  exact ⟨rfl, Nat.le_refl _, Nat.le_add_right _ _, Nat.le_refl _⟩

/-- **What cuts is a tick at which the silence is too long**, and nothing else. -/
theorem cut_iff (hr : (opened p id start).run p hs = some w) :
    w.conn.reason = some silenceReason ↔
      ∃ v ∈ (opened p id start).ticks p hs, p.pongTimeout ≤ v.silence := by
  refine run_induct (P := fun hs v => v.conn.reason = some silenceReason ↔
    ∃ u ∈ (opened p id start).ticks p hs, p.pongTimeout ≤ u.silence) ?_ ?_ hr
  · simp [opened, fresh, ticks]
  · intro hs u h v hu ih hv
    rw [step_silence (timely_run hu) hv, ih, ticks_concat h hu]
    simp only [List.mem_append, or_and_right, exists_or]

/-! ### A consumer that answers -/

/-- The consumer was heard of since the tick before, or at that moment. -/
def Recent (p : HubPolicy) (w : Watch) : Prop :=
  w.conn.nextTick ≤ w.conn.lastInbound + p.pingInterval

/-- Nothing is owed, and the next ping has room. -/
def Answered (p : HubPolicy) (w : Watch) : Prop :=
  w.owed = false ∧ w.conn.outbox.hasRoom p.sendQueueCapacity = true

instance : DecidablePred (Answered p) := fun _ => inferInstanceAs (Decidable (_ ∧ _))

theorem step_recent {h : Happening} (hw : w.conn.cancelled = false → w.Timely p)
    (ha : ∀ u ∈ w.before h, u.Answered p)
    (hi : w.conn.cancelled = false → w.owed = false → w.Recent p) (hs : w.step p h = some v)
    (hl : v.conn.cancelled = false) (ho : v.owed = false) : v.Recent p := by
  cases h with
  | tick =>
    -- there was room for a ping, which is owed now
    have hroom := (ha w List.mem_cons_self).2
    have howed := (step_tick hs).owed
    simp [hroom, ho] at howed
  | heard now =>
    obtain ⟨hle, -, rfl⟩ := step_heard hs
    exact Nat.le_trans (hw hl).soon (Nat.add_le_add_right hle _)
  | aside c =>
    obtain ⟨hc, rfl⟩ := step_aside hs
    have hrec := hi (hc.live hl) ho
    unfold Recent at hrec ⊢
    rwa [hc.nextTick, hc.lastInbound]

/-- **A consumer that answers was heard of since the tick before.** -/
theorem recent_of_mem_ticks (hr : (opened p id start).run p hs = some w)
    (ha : ∀ v ∈ (opened p id start).ticks p hs, v.Answered p) :
    ∀ v ∈ (opened p id start).ticks p hs, v.Recent p := by
  suffices h : (w.conn.cancelled = false → w.owed = false → w.Recent p) ∧
      ∀ v ∈ (opened p id start).ticks p hs, v.Recent p from h.2
  refine run_induct (P := fun hs w => (∀ v ∈ (opened p id start).ticks p hs, v.Answered p) →
    (w.conn.cancelled = false → w.owed = false → w.Recent p) ∧
      ∀ v ∈ (opened p id start).ticks p hs, v.Recent p) ?_ ?_ hr ha
  · exact fun _ => ⟨fun _ _ => Nat.le_refl _, fun _ hv => absurd hv List.not_mem_nil⟩
  · intro hs u h v hu ih hv ha
    rw [ticks_concat h hu] at ha ⊢
    simp only [List.mem_append, or_imp, forall_and] at ha ⊢
    obtain ⟨hlast, hold⟩ := ih ha.1
    refine ⟨step_recent (timely_run hu) ha.2 hlast hv, hold, fun t ht => ?_⟩
    cases h with
    | tick =>
      obtain rfl : t = u := by simpa [before] using ht
      exact hlast (step_tick hv).live (ha.2 t ht).1
    | _ => exact absurd ht List.not_mem_nil

end Watch

open Watch

/-- **When a consumer that answers is cut.** It answers each ping before the next tick, and every
ping has room. Then it is cut if and only if the silence allowed is not longer than the time between
two ticks, and some tick comes at which nothing was heard since the moment of the tick before, or
since the connection was made. -/
theorem responsive_cut_iff (s : Config.HubSection) (id start : Nat) {hs : List Happening}
    {w : Watch} (hr : (opened (.ofSection s) id start).run (.ofSection s) hs = some w)
    (ha : ∀ v ∈ (opened (.ofSection s) id start).ticks (.ofSection s) hs,
      v.Answered (.ofSection s)) :
    w.conn.reason = some silenceReason ↔
      s.pongTimeout.toNat ≤ max s.pingInterval.toNat 1 ∧
        ∃ v ∈ (opened (.ofSection s) id start).ticks (.ofSection s) hs,
          v.conn.nextTick = v.conn.lastInbound + (HubPolicy.ofSection s).pingInterval := by
  -- the floors allow a silence of an interval at least, and this consumer has none that is longer
  have hping : (HubPolicy.ofSection s).pingInterval = max s.pingInterval.toNat 1 * 1000 := rfl
  have hpong : (HubPolicy.ofSection s).pongTimeout =
    max (s.pongTimeout.toNat * 1000) (HubPolicy.ofSection s).pingInterval := rfl
  rw [cut_iff hr, ← exists_and_left]
  refine exists_congr fun v => ?_
  rw [← and_left_comm]
  refine and_congr_right fun hv => ?_
  have hrec : v.Recent _ := recent_of_mem_ticks hr ha v hv
  unfold Recent at hrec
  unfold silence
  omega

/-- A consumer that answers a while after each tick. -/
def promptly : List Happening := [.tick, .heard 15250, .tick, .heard 30250, .tick]

/-- The floors as they are without a configuration do not cut it. -/
theorem promptly_kept : ∃ w, (opened (.ofSection {}) 1 0).run (.ofSection {}) promptly = some w ∧
    w.conn.reason ≠ some silenceReason := by
  obtain ⟨w, hw⟩ := Option.isSome_iff_exists.mp
    (by decide +kernel : ((opened (.ofSection {}) 1 0).run (.ofSection {}) promptly).isSome = true)
  refine ⟨w, hw, fun hcut => ?_⟩
  have hle := ((responsive_cut_iff {} 1 0 hw (by decide +kernel)).mp hcut).1
  exact absurd hle (by decide)

/-- A silence allowed that is as long as the time between two ticks. -/
def hasty : Config.HubSection := { pingInterval := 10, pongTimeout := 10 }

/-- **A consumer is cut that was never sent a ping.** At the first tick it owes nothing, and is cut:
a hub starts, a consumer connects, ten seconds pass, and nothing was ever queued for it. -/
theorem first_tick_cuts :
    let w := opened (.ofSection hasty) 1 0
    let idle : Session := { outlet := ⟨{ policy := .ofSection hasty }, .recorded []⟩ }
    let s := (((idle.perform .start).2.perform .connect).2.perform (.advance 10000)).2
    (∀ v ∈ w.ticks (.ofSection hasty) [.tick], v.Answered (.ofSection hasty)) ∧
      (w.run (.ofSection hasty) [.tick]).map (fun v => v.conn.reason) = some (some silenceReason) ∧
      s.hub.journal = [.connected 1, .disconnected 1 silenceReason] ∧
      s.hub.connections.map (fun c => c.outbox.log.length) = [0] := by
  decide +kernel

namespace Watch

variable {p : HubPolicy} {w v : Watch} {id start : Nat} {hs : List Happening}

/-! ### Ticks that ask nothing -/

/-- Whether the tick that comes next asks nothing: its ping has no room. -/
def AsksNothing (p : HubPolicy) (w : Watch) : Prop :=
  w.conn.outbox.hasRoom p.sendQueueCapacity = false

instance : DecidablePred (AsksNothing p) := fun _ => inferInstanceAs (Decidable (_ = _))

/-- **How many of the last ticks asked nothing.** -/
def unasked (p : HubPolicy) (ticks : List Watch) : Nat :=
  (ticks.rtakeWhile fun w => w.AsksNothing p).length

theorem unasked_concat (ticks : List Watch) (w : Watch) :
    unasked p (ticks ++ [w]) = if w.AsksNothing p then unasked p ticks + 1 else 0 := by
  unfold unasked
  rw [List.rtakeWhile_concat]
  split
  · next h => simp [of_decide_eq_true h]
  · next h => simp [show ¬ w.AsksNothing p from fun hn => h (decide_eq_true hn)]

/-- **A consumer that owes nothing** has been silent, when the next tick comes, for an interval, and
for one more for each of the last ticks that asked nothing. -/
theorem silence_le_of_not_owed (hr : (opened p id start).run p hs = some w)
    (hl : w.conn.cancelled = false) (ho : w.owed = false) :
    w.silence ≤ (unasked p ((opened p id start).ticks p hs) + 1) * p.pingInterval := by
  suffices h : w.conn.nextTick ≤ w.conn.lastInbound +
      (unasked p ((opened p id start).ticks p hs) + 1) * p.pingInterval from
    Nat.sub_le_iff_le_add'.mpr h
  revert hl ho
  refine run_induct (P := fun hs w => w.conn.cancelled = false → w.owed = false →
    w.conn.nextTick ≤ w.conn.lastInbound +
      (unasked p ((opened p id start).ticks p hs) + 1) * p.pingInterval) (fun _ _ => ?_) ?_ hr
  · exact Nat.le_of_eq (congrArg (start + ·) (Nat.one_mul _).symm)
  · intro hs u h v hu ih hv hl ho
    rw [ticks_concat h hu]
    cases h with
    | tick =>
      -- a ping would be owed if there had been room for it
      have hb := step_tick hv
      obtain ⟨howed, hroom⟩ := Bool.or_eq_false_iff.mp (hb.owed.symm.trans ho)
      have hsilence := ih hb.live howed
      rw [before, unasked_concat, if_pos (show u.AsksNothing p from hroom), hb.nextTick,
        hb.lastInbound, Nat.succ_mul]
      omega
    | heard now =>
      obtain ⟨hle, -, rfl⟩ := step_heard hv
      have hsoon := (timely_run hu hl).soon
      have hone : p.pingInterval ≤
          (unasked p ((opened p id start).ticks p hs) + 1) * p.pingInterval :=
        Nat.le_mul_of_pos_left _ (Nat.succ_pos _)
      rw [show u.before (.heard now) = [] from rfl, List.append_nil]
      show u.conn.nextTick ≤ now + _
      omega
    | aside c =>
      obtain ⟨hc, rfl⟩ := step_aside hv
      rw [show u.before (.aside c) = [] from rfl, List.append_nil]
      show c.nextTick ≤ c.lastInbound + _
      rw [hc.nextTick, hc.lastInbound]
      exact ih (hc.live hl) ho

/-- So it is at every tick of a run. -/
theorem silence_le_of_mem_ticks (hr : (opened p id start).run p hs = some w)
    {early late : List Watch} (ht : (opened p id start).ticks p hs = early ++ v :: late)
    (ho : v.owed = false) : v.silence ≤ (unasked p early + 1) * p.pingInterval := by
  revert early late
  refine run_induct (P := fun hs _ => ∀ {early late : List Watch},
    (opened p id start).ticks p hs = early ++ v :: late →
      v.silence ≤ (unasked p early + 1) * p.pingInterval) (fun {early late} ht => ?_) ?_ hr
  · exact absurd ht.symm (List.append_ne_nil_of_right_ne_nil _ (List.cons_ne_nil _ _))
  · intro hs u h w hu ih hw early late ht
    rw [ticks_concat h hu] at ht
    cases h with
    | tick =>
      rcases List.eq_nil_or_concat late with rfl | ⟨late, x, rfl⟩
      · -- it is the last tick
        obtain ⟨rfl, hlast⟩ := List.append_inj' ht rfl
        obtain rfl := List.singleton_inj.mp hlast
        exact silence_le_of_not_owed hu (step_tick hw).live ho
      · rw [List.concat_eq_append, ← List.cons_append, ← List.append_assoc] at ht
        exact ih (List.append_inj' ht rfl).1
    | _ => exact ih (by simpa [before] using ht)

/-- A tick that asks nothing, and does not cut, leaves the queue as it is. -/
theorem outbox_of_asksNothing (hs : w.step p .tick = some v) (hn : w.AsksNothing p)
    (hl : v.conn.cancelled = false) : v.conn.outbox = w.conn.outbox := by
  have hb := step_tick hs
  obtain rfl : _ = v := by simpa [step, hb.live] using hs
  have hk : w.conn.keepAlive p w.conn.nextTick = w.conn.beat p w.conn.nextTick :=
    if_pos (by simp [hb.live])
  simp only [hk, beat] at hl ⊢
  split
  · rfl
  · show w.conn.outbox.offer _ _ = _
    unfold Outbox.offer Outbox.put
    rw [if_neg (by rw [hn]; decide)]
    rfl

/-- **A connection whose queue was full at `k` ticks**, all that there were, and whose consumer has
said nothing. -/
structure Overlooked (p : HubPolicy) (o : Outbox) (start k : Nat) (w : Watch) : Prop where
  live : w.conn.cancelled = false
  reason : w.conn.reason = none
  owed : w.owed = false
  outbox : w.conn.outbox = o
  heard : w.conn.lastInbound = start
  due : w.conn.nextTick = start + (k + 1) * p.pingInterval

theorem Overlooked.silence {o : Outbox} {k : Nat} (h : Overlooked p o start k w) :
    w.silence = (k + 1) * p.pingInterval := by
  unfold Watch.silence
  rw [h.due, h.heard, Nat.add_sub_cancel_left]

theorem Overlooked.exists_step {o : Outbox} {k : Nat} (h : Overlooked p o start k w) :
    ∃ v, w.step p .tick = some v := ⟨_, if_neg (by simp [h.live])⟩

/-- One tick more at which the queue is full. -/
theorem Overlooked.tick {o : Outbox} {k : Nat} (h : Overlooked p o start k w)
    (hfull : o.hasRoom p.sendQueueCapacity = false) (hs : w.step p .tick = some v)
    (hlt : (k + 1) * p.pingInterval < p.pongTimeout) : Overlooked p o start (k + 1) v := by
  have hb := step_tick hs
  have hn : w.AsksNothing p := by rw [AsksNothing, h.outbox]; exact hfull
  rw [← h.silence] at hlt
  obtain ⟨hle, -⟩ | ⟨-, hlive, hreason⟩ := hb.ends
  · omega
  refine ⟨hlive, hreason.trans h.reason, ?_, (outbox_of_asksNothing hs hn hlive).trans h.outbox,
    hb.lastInbound.trans h.heard, ?_⟩
  · rw [hb.owed, h.owed, hn]
    rfl
  · rw [hb.nextTick, h.due, Nat.succ_mul (k + 1), Nat.add_assoc]

theorem exists_overlooked {c : Connection} (hc : (Connection.fresh p id start).Aside c)
    (hlive : c.cancelled = false) (hfull : c.outbox.hasRoom p.sendQueueCapacity = false) (k : Nat)
    (hlt : k * p.pingInterval < p.pongTimeout) :
    ∃ v, (opened p id start).run p (.aside c :: List.replicate k .tick) = some v ∧
      Overlooked p c.outbox start k v := by
  induction k with
  | zero =>
    refine ⟨{ opened p id start with conn := c }, ?_, hlive, ?_, rfl, rfl, hc.lastInbound, ?_⟩
    · show ((opened p id start).step p (.aside c)).bind _ = _
      rw [show (opened p id start).step p (.aside c) = some _ from if_pos hc]
      rfl
    · obtain hr | ⟨-, hcancelled, -⟩ := hc.reason
      · exact hr
      · exact absurd (hlive.symm.trans hcancelled) (by decide)
    · exact hc.nextTick.trans (congrArg (start + ·) (Nat.one_mul _).symm)
  | succ k ih =>
    have hless : k * p.pingInterval ≤ (k + 1) * p.pingInterval :=
      Nat.mul_le_mul_right _ (Nat.le_succ k)
    obtain ⟨v, hv, ho⟩ := ih (Nat.lt_of_le_of_lt hless hlt)
    obtain ⟨u, hu⟩ := ho.exists_step
    refine ⟨u, ?_, ho.tick hfull hu hlt⟩
    rw [List.replicate_succ', ← List.cons_append, run_concat, hv]
    exact hu

/-- **A consumer that owes nothing is cut behind a full queue.** No tick finds room for a ping, so
none is sent and none is to be answered. The silence grows all the same, by an interval for each
tick, up to the first tick that finds too much of it. -/
theorem full_queue_cuts {c : Connection} (hc : (Connection.fresh p id start).Aside c)
    (hlive : c.cancelled = false) (hfull : c.outbox.hasRoom p.sendQueueCapacity = false) {n : Nat}
    (hlt : n * p.pingInterval < p.pongTimeout) (hle : p.pongTimeout ≤ (n + 1) * p.pingInterval) :
    ∃ w, (opened p id start).run p (.aside c :: List.replicate (n + 1) .tick) = some w ∧
      w.conn.reason = some silenceReason ∧ w.owed = false := by
  obtain ⟨v, hv, ho⟩ := exists_overlooked hc hlive hfull n hlt
  obtain ⟨w, hw⟩ := ho.exists_step
  have hb := step_tick hw
  refine ⟨w, ?_, ?_, ?_⟩
  · rw [List.replicate_succ', ← List.cons_append, run_concat, hv]
    exact hw
  · obtain ⟨-, -, hreason⟩ | ⟨hgt, -⟩ := hb.ends
    · rw [hreason, ho.reason]
      rfl
    · rw [ho.silence] at hgt
      omega
  · rw [hb.owed, ho.owed, ho.outbox, hfull]
    rfl

end Watch

end PaneRelay.Hub
