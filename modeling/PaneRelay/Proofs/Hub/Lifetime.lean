import PaneRelay.Proofs.Hub.Run
import PaneRelay.Proofs.Runs

/-! # From the first start to the last stop

Those who use a hub start it and stop it, look at its state and its address, and consumers arrive,
all at the same time. A stop takes a while, and whoever calls it meanwhile waits for the same end.
An arrival looks twice whether the hub is draining before it is let in, and the hub may start to
drain between two of its steps. The accept loop may end at any time after a start, and takes the
listener with it.

* `reported`, `addressed`: the state and the address as a call finds them that reads one flag after
  the other.
* `Front`, `Front.step`, `Front.run`: the calls and the arrivals in their single steps, in any
  order; `run_start`, `run_cancel`, `run_accept`, `run_beginStop`: what the hub does in one go is
  some of them.
* `Later`: the flags that never go down again.
* `Kept`: what every step keeps; `Orderly`: what that says of the answers and the arrivals.
* `Reports`, `ReportsAddress`: calls that ask for the state and the address; `reports_at_once`: what
  they find if nothing comes in between.
* `lifetime`: the whole story. -/

namespace PaneRelay.Hub

/-- Whether an act leaves the life of the hub alone and lets nobody in. -/
def Act.isInner : Act → Bool
  | .attach _ | .start _ | .beginStop | .finishStop | .cancel => false
  | _ => true

theorem dropConnection_life (h : Hub) (id : Nat) (reason : String) :
    (h.dropConnection id reason).life = h.life := by
  unfold dropConnection
  split <;> rfl

theorem act_life (h : Hub) {a : Act} (ha : a.isInner = true) : (h.act a).life = h.life := by
  cases a with
  | drop id reason => exact dropConnection_life h id reason
  | receive id text =>
    show (h.receive id text).life = h.life
    unfold receive
    split
    · rfl
    · split
      · next ids _ =>
        obtain ⟨wanted, journal, he⟩ := subscribe_fields h id ids
        rw [he]
      · next ids _ =>
        obtain ⟨wanted, journal, he⟩ := unsubscribe_fields h id ids
        rw [he]
      · rfl
  | broadcast p d =>
    by_cases hc : ∃ id, h.Concerns id p d
    · obtain ⟨id, hc⟩ := hc
      rw [act, broadcast_eq hc]
      split
      · rfl
      · split
        · rfl
        · exact dropConnection_life _ _ _
    · rw [act, broadcast_of_not (not_exists.mp hc)]
  | take id => rfl
  | adjust id f => rfl
  | serve now =>
    show (Hub.reap _).life = h.life
    unfold reap
    split
    · rfl
    · split
      · rfl
      · split
        · exact dropConnection_life _ _ _
        · rfl
  | _ => cases ha

/-! ### Reading the flags one after the other -/

/-- **The state that is reported** by a call that reads whether the hub is closed in one state of
it, whether it is draining in a later one, and whether a consumer is live in a third. -/
def reported (first second third : Hub) : State :=
  if first.life.closed then .closed
  else if second.life.draining then .draining
  else if third.isActive then .connected
  else .idle

theorem reported_eq_closed_iff {a b c : Hub} :
    reported a b c = .closed ↔ a.life.closed = true := by
  unfold reported
  split
  · next hc => exact iff_of_true rfl hc
  · next hc =>
    refine iff_of_false ?_ hc
    split
    · decide
    · split <;> decide

theorem reported_eq_draining_iff {a b c : Hub} :
    reported a b c = .draining ↔ a.life.closed = false ∧ b.life.draining = true := by
  unfold reported
  split
  · next hc => exact iff_of_false (by decide) (by simp [hc])
  · next hc =>
    split
    · next hd => exact iff_of_true rfl ⟨by simpa using hc, hd⟩
    · next hd =>
      refine iff_of_false ?_ (fun h => hd h.2)
      split <;> decide

/-- **Whether an address is given** by a call that reads whether the hub is closed in one state of
it, and whether it runs in a later one. -/
def addressed (first second : Hub) : Bool := !first.life.closed && second.life.running

/-! ### Calls and arrivals -/

/-- **An answer** to a call. -/
inductive Answer where
  /-- Of a start. -/
  | started (r : Except HubError Unit)
  /-- Of a stop. -/
  | stopped (r : Except HubError Unit)

/-- Whether it says that a start succeeded. -/
def Answer.isUp : Answer → Bool
  | .started (.ok ()) => true
  | _ => false

theorem Answer.isUp_iff {a : Answer} : a.isUp = true ↔ a = .started (.ok ()) := by
  unfold isUp
  split
  · exact iff_of_true rfl rfl
  · next hn => exact iff_of_false (by decide) (fun h => hn h)

/-- **What an answer may be**, given those before it. A start that comes after one that succeeded,
or after the end of a stop, is refused; and all stops say the same, namely that the hub was never
started iff no start had succeeded. -/
def Answer.Apt (past : List Answer) : Answer → Prop
  | .started r =>
    .started (.ok ()) ∈ past ∨ (∃ q, .stopped q ∈ past) → r = .error .alreadyStarted
  | .stopped r =>
    (∀ q, .stopped q ∈ past → r = q) ∧ (r = .error .notStarted ↔ .started (.ok ()) ∉ past)

/-- **How far an arrival is.** -/
inductive Stage where
  /-- Its request has come. -/
  | door
  /-- The hub was not draining when it looked first. -/
  | hall
  /-- Nor when it looked again. -/
  | threshold
  /-- Its connection was installed. -/
  | inside
  /-- It was sent away. -/
  | away
deriving DecidableEq

/-- **An arrival.** -/
structure Guest where
  /-- How far it is. -/
  stage : Stage
  /-- Whether the hub was draining when it came. -/
  late : Bool
deriving DecidableEq

/-- An arrival after it has looked whether the hub is draining, if that is what it does next. -/
def Guest.look (g : Guest) (draining : Bool) : Option Guest :=
  match g.stage with
  | .door => some { g with stage := if draining then .away else .hall }
  | .hall => some { g with stage := if draining then .away else .threshold }
  | _ => none

/-- **A hub and those in front of it.** -/
structure Front where
  /-- The hub. -/
  hub : Hub
  /-- The answers given so far, oldest first. -/
  answers : List Answer := []
  /-- How many calls of stop have not been answered. -/
  waiting : Nat := 0
  /-- How many times the hub began to be taken down. -/
  teardowns : Nat := 0
  /-- The arrivals, oldest first. -/
  guests : List Guest := []

namespace Front

/-- **What can happen.** -/
inductive Step where
  /-- A start, given what binding the port comes to. -/
  | start (bound : Except String Unit)
  /-- A stop is called. -/
  | stop
  /-- The taking down of the hub comes to its end. -/
  | finish
  /-- A call of stop is answered. -/
  | reply
  /-- The accept loop ends. -/
  | lapse
  /-- The token of the hub fires. -/
  | cancel
  /-- A request of a consumer comes. -/
  | knock
  /-- An arrival looks whether the hub is draining. -/
  | look (i : Nat)
  /-- An arrival's connection is installed. -/
  | enter (i : Nat) (now : Nat)
  /-- Something inside the hub. -/
  | inner (a : Act)

/-- A hub that was not used yet. -/
def fresh (policy : HubPolicy) : Front := { hub := Hub.fresh policy }

/-- A start. The accept loop ends in a step of its own, also if the token has fired by now. -/
def start (f : Front) (bound : Except String Unit) : Front :=
  { f with
    hub := { f.hub with life := { (f.hub.life.start bound).2 with closed := f.hub.life.closed } }
    answers := f.answers ++ [.started (f.hub.life.start bound).1] }

/-- The accept loop ends, and the listener is gone. -/
def lapse (f : Front) : Front :=
  { f with hub := { f.hub with life := { f.hub.life with closed := true } } }

/-- The token fires. The accept loop, if there is one, ends in a step of its own. -/
def cancel (f : Front) : Front :=
  { f with hub := { f.hub.cancel with life := { f.hub.life with cancelled := true } } }

/-- A stop is called: the first one begins to take the hub down, and all wait for the end of that.
The consumer is shown out later. -/
def stop (f : Front) : Front :=
  if f.hub.life.stopped.isSome || f.hub.life.draining then { f with waiting := f.waiting + 1 }
  else
    { f with
      hub := { f.hub with life := f.hub.life.beginStop }
      waiting := f.waiting + 1, teardowns := f.teardowns + 1 }

/-- A call of stop that waits is answered, once it is known what the first one came to. -/
def reply (f : Front) : Option Front :=
  match f.waiting, f.hub.life.stopped with
  | n + 1, some r => some { f with waiting := n, answers := f.answers ++ [.stopped r] }
  | _, _ => none

theorem reply_eq_some {f g : Front} : f.reply = some g ↔
    ∃ n r, f.waiting = n + 1 ∧ f.hub.life.stopped = some r ∧
      g = { f with waiting := n, answers := f.answers ++ [.stopped r] } := by
  unfold reply
  split
  · next n r hw hr =>
    rw [Option.some.injEq]
    constructor
    · rintro rfl
      exact ⟨n, r, hw, hr, rfl⟩
    · rintro ⟨m, q, hm, hq, rfl⟩
      obtain rfl : n = m := Nat.succ.inj (hw.symm.trans hm)
      obtain rfl : r = q := Option.some.inj (hr.symm.trans hq)
      rfl
  · next hn =>
    refine iff_of_false (by simp) ?_
    rintro ⟨n, r, hw, hr, -⟩
    exact hn n r hw hr

/-- The state after a step, if it can be taken. -/
def step (f : Front) : Step → Option Front
  | .start bound => some (f.start bound)
  | .stop => some f.stop
  | .finish => if f.hub.life.isStopping then some { f with hub := f.hub.finishStop } else none
  | .reply => f.reply
  | .lapse => if f.hub.life.running || f.hub.life.draining then some f.lapse else none
  | .cancel => some f.cancel
  | .knock => some { f with guests := f.guests ++ [⟨.door, f.hub.life.draining⟩] }
  | .look i =>
    (f.guests[i]?.bind fun g => g.look f.hub.life.draining).map fun g =>
      { f with guests := f.guests.set i g }
  | .enter i now =>
    (f.guests[i]?.filter fun g => g.stage = .threshold).map fun g =>
      { f with hub := f.hub.act (.attach now), guests := f.guests.set i { g with stage := .inside } }
  | .inner a => if a.isInner then some { f with hub := f.hub.act a } else none

/-- The state after some steps, if they can be taken in this order. -/
def run (f : Front) (ss : List Step) : Option Front := ss.foldlM step f

@[simp] theorem run_nil (f : Front) : f.run [] = some f := rfl

@[simp] theorem run_cons (f : Front) (s : Step) (ss : List Step) :
    f.run (s :: ss) = (f.step s).bind (·.run ss) := rfl

/-- What every step keeps, every run keeps. -/
theorem run_induct {P : Front → Prop} (hstep : ∀ f s g, P f → f.step s = some g → P g)
    {f g : Front} {ss : List Step} (hf : P f) (hr : f.run ss = some g) : P g :=
  foldlM_induct hstep hf hr

/-- **What a start comes to.** -/
theorem start_cases (l : Lifecycle) (bound : Except String Unit) :
    l.start bound = (.error .alreadyStarted, l) ∨
      l.stopped = none ∧ l.started = false ∧
        ((∃ reason, l.start bound = (.error (.bind reason), { l with started := true })) ∨
          l.start bound = (.ok (), { l with
            started := true, running := true, closed := l.closed || l.cancelled })) := by
  unfold Lifecycle.start
  split
  · exact .inl rfl
  · next hn =>
    simp only [Bool.or_eq_true, not_or, Bool.not_eq_true, Option.isSome_eq_false_iff,
      Option.isNone_iff_eq_none] at hn
    refine .inr ⟨hn.1, hn.2, ?_⟩
    split
    · exact .inl ⟨_, rfl⟩
    · exact .inr rfl

/-! ### Steps with nothing in between -/

/-- **A start** is one step, and the accept loop ends right after it if the token has fired. -/
theorem run_start (h : Hub) (bound : Except String Unit) :
    ∃ ss f, ({ hub := h } : Front).run ss = some f ∧ f.hub = (h.start bound).2 ∧
      f.answers = [.started (h.start bound).1] := by
  unfold Hub.start
  rcases start_cases h.life bound with hr | ⟨-, -, ⟨reason, hr⟩ | hr⟩
  · exact ⟨[.start bound], start { hub := h } bound, rfl, by simp [start, hr], by simp [start, hr]⟩
  · exact ⟨[.start bound], start { hub := h } bound, rfl, by simp [start, hr], by simp [start, hr]⟩
  · cases hc : h.life.cancelled with
    | false =>
      exact ⟨[.start bound], start { hub := h } bound, rfl, by simp [start, hr, hc],
        by simp [start, hr]⟩
    | true =>
      exact ⟨[.start bound, .lapse], (start { hub := h } bound).lapse, by simp [step, start, hr],
        by simp [lapse, start, hr, hc], by simp [lapse, start, hr]⟩

/-- **The token fires**, and the accept loop ends at once if there is one. -/
theorem run_cancel (h : Hub) :
    ∃ ss f, ({ hub := h } : Front).run ss = some f ∧ f.hub = h.cancel := by
  cases hup : h.life.running || h.life.draining with
  | false =>
    refine ⟨[.cancel], cancel { hub := h }, rfl, ?_⟩
    simp [cancel, Hub.cancel, Lifecycle.cancel, Bool.or_assoc, hup]
  | true =>
    refine ⟨[.cancel, .lapse], (cancel { hub := h }).lapse, ?_, ?_⟩
    · simp only [run_cons, run_nil, step, Option.bind_some, cancel, hup, if_true]
    · simp [lapse, cancel, Hub.cancel, Lifecycle.cancel, Bool.or_assoc, hup]

/-- **Letting a consumer in** is an arrival that nothing comes in between. -/
theorem run_accept (h : Hub) (now : Nat) :
    ∃ ss f, ({ hub := h } : Front).run ss = some f ∧ f.hub = h.accept now := by
  unfold Hub.accept
  cases hd : h.life.draining with
  | true =>
    refine ⟨[.knock, .look 0], { hub := h, guests := [⟨.away, true⟩] }, ?_, (if_pos rfl).symm⟩
    simp [step, Guest.look, hd]
  | false =>
    refine ⟨[.knock, .look 0, .look 0, .enter 0 now],
      { hub := h.act (.attach now), guests := [⟨.inside, false⟩] }, ?_, (if_neg (by decide)).symm⟩
    simp [step, Guest.look, hd, Option.filter]

/-- **A stop** begins by taking the hub down and showing the consumer out. -/
theorem run_beginStop (h : Hub) :
    ∃ ss f, ({ hub := h } : Front).run ss = some f ∧ f.hub = h.beginStop := by
  have hstop : ({ hub := h } : Front).stop.hub = { h with life := h.life.beginStop } := by
    unfold stop
    split
    · next hs =>
      have hlife : h.life.beginStop = h.life := if_pos hs
      rw [hlife]
    · rfl
  unfold Hub.beginStop
  simp only
  split
  · next id hl =>
    split
    · refine ⟨[.stop, .inner (.drop id stoppingReason)], _, rfl, ?_⟩
      show ({ hub := h } : Front).stop.hub.dropConnection id stoppingReason = _
      rw [hstop]
    · exact ⟨[.stop], _, rfl, hstop⟩
  · exact ⟨[.stop], _, rfl, hstop⟩

/-! ### Flags that stay up -/

/-- **Later in the life of a hub:** what has happened stays so. -/
structure Later (l l' : Lifecycle) : Prop where
  closed : l.closed = true → l'.closed = true
  draining : l.draining = true → l'.draining = true
  stopped : ∀ r, l.stopped = some r → l'.stopped = some r

theorem Later.refl (l : Lifecycle) : Later l l := ⟨id, id, fun _ => id⟩

theorem Later.trans {l l' l'' : Lifecycle} (h : Later l l') (h' : Later l' l'') : Later l l'' :=
  ⟨h'.closed ∘ h.closed, h'.draining ∘ h.draining, fun r hr => h'.stopped r (h.stopped r hr)⟩

/-- **What the first half of a stop comes to.** -/
theorem beginStop_cases (l : Lifecycle) :
    (l.stopped.isSome || l.draining) = true ∧ l.beginStop = l ∨
      (l.stopped = none ∧ l.draining = false) ∧
        (l.running = true ∧ l.beginStop = { l with running := false, draining := true } ∨
          l.running = false ∧
            l.beginStop = { l with closed := true, stopped := some (.error .notStarted) }) := by
  unfold Lifecycle.beginStop
  split
  · next hs => exact .inl ⟨hs, rfl⟩
  · next hn =>
    simp only [Bool.or_eq_true, not_or, Bool.not_eq_true, Option.isSome_eq_false_iff,
      Option.isNone_iff_eq_none] at hn
    refine .inr ⟨hn, ?_⟩
    split
    · next hr => exact .inl ⟨hr, rfl⟩
    · next hr => exact .inr ⟨by simpa using hr, rfl⟩

theorem later_beginStop (l : Lifecycle) : Later l l.beginStop := by
  rcases beginStop_cases l with ⟨-, he⟩ | ⟨⟨hstopped, -⟩, ⟨-, he⟩ | ⟨-, he⟩⟩
  · rw [he]
    exact Later.refl l
  · rw [he]
    exact ⟨id, fun _ => rfl, fun _ => id⟩
  · rw [he]
    exact ⟨fun _ => rfl, id, fun r hr => by rw [hstopped] at hr; cases hr⟩

theorem later_finishStop (l : Lifecycle) : Later l l.finishStop := by
  unfold Lifecycle.finishStop
  split
  · next hs =>
    simp only [Bool.and_eq_true, Option.isNone_iff_eq_none] at hs
    exact ⟨fun _ => rfl, id, fun r hr => by rw [hs.2] at hr; cases hr⟩
  · exact Later.refl l

theorem attach_life (h : Hub) (now : Nat) : (h.act (.attach now)).life = h.life := by
  show (h.issue.2.attach _).life = h.life
  unfold attach
  cases h.issue.2.live <;> rfl

variable {f g : Front}

/-- **Every step goes on in the life of the hub.** -/
theorem later_step {s : Step} (hs : f.step s = some g) : Later f.hub.life g.hub.life := by
  cases s with
  | start bound =>
    cases hs
    unfold start
    rcases start_cases f.hub.life bound with hr | ⟨-, -, ⟨reason, hr⟩ | hr⟩ <;>
      · rw [hr]
        exact ⟨id, id, fun _ => id⟩
  | stop =>
    cases hs
    show Later f.hub.life f.stop.hub.life
    unfold stop
    split
    · exact Later.refl _
    · exact later_beginStop _
  | finish =>
    obtain ⟨-, hs⟩ := Option.ite_none_right_eq_some.mp hs
    cases hs
    exact later_finishStop _
  | reply =>
    obtain ⟨n, r, -, -, rfl⟩ := reply_eq_some.mp hs
    exact Later.refl _
  | lapse =>
    obtain ⟨-, hs⟩ := Option.ite_none_right_eq_some.mp hs
    cases hs
    exact ⟨fun _ => rfl, id, fun _ => id⟩
  | cancel =>
    cases hs
    exact ⟨id, id, fun _ => id⟩
  | knock =>
    cases hs
    exact Later.refl _
  | look i =>
    obtain ⟨_, -, rfl⟩ := Option.map_eq_some_iff.mp hs
    exact Later.refl _
  | enter i now =>
    obtain ⟨_, -, rfl⟩ := Option.map_eq_some_iff.mp hs
    show Later f.hub.life (f.hub.act (.attach now)).life
    rw [attach_life]
    exact Later.refl _
  | inner a =>
    obtain ⟨ha, hs⟩ := Option.ite_none_right_eq_some.mp hs
    cases hs
    show Later f.hub.life (f.hub.act a).life
    rw [act_life f.hub ha]
    exact Later.refl _

theorem later_run {ss : List Step} (hr : f.run ss = some g) : Later f.hub.life g.hub.life :=
  run_induct (P := fun g => Later f.hub.life g.hub.life)
    (fun _ _ _ hl hs => hl.trans (later_step hs)) (Later.refl _) hr

/-! ### What every step keeps -/

/-- **What every step keeps.** -/
structure Kept (f : Front) : Prop where
  /-- A start has succeeded iff the hub runs or is being taken down. -/
  up : .started (.ok ()) ∈ f.answers ↔ f.hub.life.running = true ∨ f.hub.life.draining = true
  /-- It was tried, then. -/
  tried : f.hub.life.running = true ∨ f.hub.life.draining = true → f.hub.life.started = true
  apart : f.hub.life.draining = true → f.hub.life.running = false
  once : f.answers.countP Answer.isUp ≤ 1
  /-- A stop that came to its end has closed the hub, and is the end of a hub that was taken down,
  or of one that no start had succeeded for. -/
  ended : ∀ r, f.hub.life.stopped = some r → f.hub.life.closed = true ∧
    f.hub.life.running = false ∧ (r = .error .notStarted ↔ f.hub.life.draining = false)
  told : ∀ r, .stopped r ∈ f.answers → f.hub.life.stopped = some r
  torn : f.teardowns = if f.hub.life.stopped.isSome || f.hub.life.draining then 1 else 0
  apt : ∀ past a, past ++ [a] <+: f.answers → Answer.Apt past a
  /-- Who came late is not past the door. -/
  late : ∀ g ∈ f.guests, g.late = true →
    f.hub.life.draining = true ∧ (g.stage = .door ∨ g.stage = .away)

namespace Kept

theorem fresh (policy : HubPolicy) : Kept (Front.fresh policy) where
  up := iff_of_false List.not_mem_nil (by rintro (h | h) <;> cases h)
  tried h := by rcases h with h | h <;> cases h
  apart h := by cases h
  once := Nat.zero_le _
  ended r hr := by cases hr
  told r hr := absurd hr List.not_mem_nil
  torn := rfl
  apt past a hp := by simp [Front.fresh] at hp
  late g hg := absurd hg List.not_mem_nil

/-- The rest of the hub does not count, nor does whether it is closed, as long as it stays so. -/
theorem aside (h : Kept f) {hub : Hub} (hs : hub.life.started = f.hub.life.started)
    (hr : hub.life.running = f.hub.life.running) (hd : hub.life.draining = f.hub.life.draining)
    (hq : hub.life.stopped = f.hub.life.stopped)
    (hc : f.hub.life.closed = true → hub.life.closed = true) (n : Nat) :
    Kept { f with hub, waiting := n } where
  up := by rw [hr, hd]; exact h.up
  tried := by rw [hr, hd, hs]; exact h.tried
  apart := by rw [hr, hd]; exact h.apart
  once := h.once
  ended r ho := by
    rw [hq] at ho
    obtain ⟨hclosed, hrest⟩ := h.ended r ho
    rw [hr, hd]
    exact ⟨hc hclosed, hrest⟩
  told r ht := by rw [hq]; exact h.told r ht
  torn := by rw [hq, hd]; exact h.torn
  apt := h.apt
  late := by rw [hd]; exact h.late

theorem start (h : Kept f) (bound : Except String Unit) : Kept (f.start bound) := by
  unfold Front.start
  rcases start_cases f.hub.life bound with hr | ⟨hstopped, hstarted, hr⟩
  · -- it is refused, and nothing changes
    rw [hr]
    refine ⟨?_, h.tried, h.apart, ?_, h.ended, fun r hr => h.told r ?_, h.torn,
      forall_prefix_concat h.apt fun _ => rfl, h.late⟩
    · simpa using h.up
    · simpa [List.countP_append, Answer.isUp] using h.once
    · simpa using hr
  -- no start had succeeded, and no stop has come to its end
  have hdown : ¬ (f.hub.life.running = true ∨ f.hub.life.draining = true) := by
    intro hup
    exact absurd (hstarted.symm.trans (h.tried hup)) (by decide)
  have hnever : .started (.ok ()) ∉ f.answers := fun hm => hdown (h.up.mp hm)
  have hnone : ∀ q, .stopped q ∉ f.answers := fun q hq => by
    have ht := h.told q hq
    rw [hstopped] at ht
    cases ht
  have hzero : f.answers.countP Answer.isUp = 0 := by
    rw [List.countP_eq_zero]
    intro a ha hup
    rw [Answer.isUp_iff.mp hup] at ha
    exact hnever ha
  have hapt : ∀ r, ∀ past b, past ++ [b] <+: f.answers ++ [.started r] → Answer.Apt past b := by
    intro r
    refine forall_prefix_concat h.apt fun hp => ?_
    rcases hp with hm | ⟨q, hm⟩
    · exact absurd hm hnever
    · exact absurd hm (hnone q)
  rcases hr with ⟨reason, hr⟩ | hr
  · rw [hr]
    refine ⟨?_, fun _ => rfl, h.apart, ?_, h.ended, fun r hr => h.told r ?_, h.torn, hapt _,
      h.late⟩
    · simpa using h.up
    · simpa [List.countP_append, Answer.isUp] using h.once
    · simpa using hr
  · rw [hr]
    refine ⟨iff_of_true (by simp) (.inl rfl), fun _ => rfl, fun hd => absurd (.inr hd) hdown, ?_,
      fun r hr => ?_, fun r hr => absurd (by simpa using hr) (hnone r), h.torn, hapt _, h.late⟩
    · simp [List.countP_append, hzero, Answer.isUp]
    · rw [show f.hub.life.stopped = some r from hr] at hstopped
      cases hstopped

theorem stop (h : Kept f) : Kept f.stop := by
  unfold Front.stop
  rcases beginStop_cases f.hub.life with ⟨hs, -⟩ | ⟨⟨hstopped, hdrain⟩, hr⟩
  · rw [if_pos hs]
    exact h.aside rfl rfl rfl rfl id _
  rw [if_neg (by simp [hstopped, hdrain])]
  have hzero : f.teardowns = 0 := by
    rw [h.torn, hstopped, hdrain]
    rfl
  have hnone : ∀ r, f.hub.life.stopped ≠ some r := by
    intro r hr
    rw [hstopped] at hr
    cases hr
  have hpunctual : ∀ g ∈ f.guests, ¬ g.late = true := fun g hg hl =>
    absurd (hdrain.symm.trans (h.late g hg hl).1) (by decide)
  rcases hr with ⟨hrun, he⟩ | ⟨hrun, he⟩
  · rw [he]
    refine ⟨iff_of_true (h.up.mpr (.inl hrun)) (.inr rfl), fun _ => h.tried (.inl hrun),
      fun _ => rfl, h.once, fun r hr => absurd hr (hnone r), h.told, ?_, h.apt,
      fun g hg hl => absurd hl (hpunctual g hg)⟩
    show f.teardowns + 1 = _
    rw [hzero]
    simp
  · rw [he]
    refine ⟨h.up, h.tried, h.apart, h.once, fun r hr => ?_,
      fun r hr => absurd (h.told r hr) (hnone r), ?_, h.apt, h.late⟩
    · cases hr
      exact ⟨rfl, hrun, iff_of_true rfl hdrain⟩
    · show f.teardowns + 1 = _
      rw [hzero]
      rfl

theorem finish (h : Kept f) (hs : f.hub.life.isStopping = true) :
    Kept { f with hub := f.hub.finishStop } := by
  obtain ⟨hdrain, hstopped⟩ : f.hub.life.draining = true ∧ f.hub.life.stopped = none := by
    simpa [Lifecycle.isStopping] using hs
  have he : f.hub.finishStop = { f.hub with life := { f.hub.life with
      closed := true, stopped := some (.ok ()) } } := by
    unfold finishStop Lifecycle.finishStop
    rw [show (f.hub.life.draining && f.hub.life.stopped.isNone) = true from hs]
    rfl
  rw [he]
  refine ⟨h.up, h.tried, h.apart, h.once, fun r hr => ?_, fun r hr => ?_, ?_, h.apt, h.late⟩
  · cases hr
    refine ⟨rfl, h.apart hdrain, iff_of_false (by rintro ⟨⟩) ?_⟩
    rw [show f.hub.life.draining = true from hdrain]
    decide
  · have ht := h.told r hr
    rw [hstopped] at ht
    cases ht
  · show f.teardowns = _
    rw [h.torn, hdrain]
    simp

theorem reply (h : Kept f) {n : Nat} {r : Except HubError Unit}
    (hr : f.hub.life.stopped = some r) :
    Kept { f with waiting := n, answers := f.answers ++ [.stopped r] } := by
  obtain ⟨-, hrun, hwhy⟩ := h.ended r hr
  have hapt : Answer.Apt f.answers (.stopped r) := by
    refine ⟨fun q hq => Option.some.inj (hr.symm.trans (h.told q hq)), ?_⟩
    rw [hwhy, h.up, hrun]
    simp
  refine ⟨?_, h.tried, h.apart, ?_, h.ended, fun q hq => ?_, h.torn,
    forall_prefix_concat h.apt hapt, h.late⟩
  · simpa using h.up
  · simpa [List.countP_append, Answer.isUp] using h.once
  · rcases List.mem_append.mp hq with hq | hq
    · exact h.told q hq
    · cases List.mem_singleton.mp hq
      exact hr

/-- Arrivals come and go. -/
theorem guests (h : Kept f) {gs : List Guest} (hg : ∀ g ∈ gs, g.late = true →
    f.hub.life.draining = true ∧ (g.stage = .door ∨ g.stage = .away)) :
    Kept { f with guests := gs } :=
  ⟨h.up, h.tried, h.apart, h.once, h.ended, h.told, h.torn, h.apt, hg⟩

/-- **Every step keeps it.** -/
theorem step (h : Kept f) {s : Step} (hs : f.step s = some g) : Kept g := by
  cases s with
  | start bound =>
    cases hs
    exact h.start bound
  | stop =>
    cases hs
    exact h.stop
  | finish =>
    obtain ⟨hf, hs⟩ := Option.ite_none_right_eq_some.mp hs
    cases hs
    exact h.finish hf
  | reply =>
    obtain ⟨n, r, -, hr, rfl⟩ := reply_eq_some.mp hs
    exact h.reply hr
  | lapse =>
    obtain ⟨-, hs⟩ := Option.ite_none_right_eq_some.mp hs
    cases hs
    exact h.aside (by rfl) (by rfl) (by rfl) (by rfl) (by exact fun _ => rfl) f.waiting
  | cancel =>
    cases hs
    exact h.aside (by rfl) (by rfl) (by rfl) (by rfl) (by exact id) f.waiting
  | knock =>
    cases hs
    refine h.guests fun g hg hl => ?_
    rcases List.mem_append.mp hg with hg | hg
    · exact h.late g hg hl
    · cases List.mem_singleton.mp hg
      exact ⟨hl, .inl rfl⟩
  | look i =>
    obtain ⟨g', hlook, rfl⟩ := Option.map_eq_some_iff.mp hs
    obtain ⟨g, hg, hlook⟩ := Option.bind_eq_some_iff.mp hlook
    refine h.guests fun e he hl => ?_
    rcases List.mem_or_eq_of_mem_set he with he | rfl
    · exact h.late e he hl
    · -- who came late is at the door, and is sent away
      unfold Guest.look at hlook
      split at hlook
      · cases hlook
        obtain ⟨hdrain, -⟩ := h.late g (List.mem_of_getElem? hg) hl
        exact ⟨hdrain, .inr (if_pos hdrain)⟩
      · next hstage =>
        cases hlook
        obtain ⟨-, hd | hd⟩ := h.late g (List.mem_of_getElem? hg) hl <;>
          · rw [hstage] at hd
            cases hd
      · cases hlook
  | enter i now =>
    obtain ⟨g, hg, rfl⟩ := Option.map_eq_some_iff.mp hs
    obtain ⟨hg, hstage⟩ := Option.filter_eq_some_iff.mp hg
    have hstage : g.stage = .threshold := by simpa using hstage
    have hlife := attach_life f.hub now
    have hin : Kept { f with hub := f.hub.act (.attach now) } :=
      h.aside (by rw [hlife]) (by rw [hlife]) (by rw [hlife]) (by rw [hlife])
        (fun hc => by rw [hlife]; exact hc) f.waiting
    refine hin.guests fun e he hl => ?_
    rcases List.mem_or_eq_of_mem_set he with he | rfl
    · exact hin.late e he hl
    · obtain ⟨-, hd | hd⟩ := h.late g (List.mem_of_getElem? hg) hl <;>
        · rw [hstage] at hd
          cases hd
  | inner a =>
    obtain ⟨ha, hs⟩ := Option.ite_none_right_eq_some.mp hs
    cases hs
    have hlife := act_life f.hub ha
    exact h.aside (by rw [hlife]) (by rw [hlife]) (by rw [hlife]) (by rw [hlife])
      (fun hc => by rw [hlife]; exact hc) f.waiting

theorem run (h : Kept f) {ss : List Step} (hr : f.run ss = some g) : Kept g :=
  run_induct (fun _ _ _ hk hs => hk.step hs) h hr

end Kept

/-! ### The whole story -/

/-- **What the answers and the arrivals say.** -/
structure Orderly (f : Front) : Prop where
  /-- At most one start succeeds. -/
  started_once : f.answers.countP Answer.isUp ≤ 1
  /-- Every answer goes with those before it. -/
  apt : ∀ past a, past ++ [a] <+: f.answers → Answer.Apt past a
  /-- The hub is taken down once, before any stop is answered. -/
  torn_once : f.teardowns ≤ 1 ∧ ∀ r, .stopped r ∈ f.answers → f.teardowns = 1
  /-- Who came when the hub was draining is not let in. -/
  shut_out : ∀ g ∈ f.guests, g.late = true → g.stage ≠ .inside

theorem Kept.orderly (h : Kept f) : Orderly f where
  started_once := h.once
  apt := h.apt
  torn_once := by
    rw [h.torn]
    refine ⟨by split <;> decide, fun r hr => if_pos ?_⟩
    rw [h.told r hr]
    rfl
  shut_out g hg hl := by
    obtain ⟨-, hs | hs⟩ := h.late g hg hl <;>
      · rw [hs]
        decide

/-- **A call that asks for the state**, and whatever else happens while it looks. -/
def Reports (f : Front) (s : State) (g : Front) : Prop :=
  ∃ ss e ts, f.run ss = some e ∧ e.run ts = some g ∧ s = reported f.hub e.hub g.hub

/-- **A call that asks for the address**, and whatever else happens while it looks. -/
def ReportsAddress (f : Front) (b : Bool) (g : Front) : Prop :=
  ∃ ss, f.run ss = some g ∧ b = addressed f.hub g.hub

/-- **With nothing in between**, the state and the address are those of the hub. -/
theorem reports_at_once (f : Front) :
    Reports f f.hub.state f ∧ ReportsAddress f f.hub.life.hasAddress f :=
  ⟨⟨[], f, [], rfl, rfl, rfl⟩, [], rfl, Bool.and_comm _ _⟩

/-- A call that comes after another one finds the hub later in its life. -/
theorem Reports.mono {s t : State} {f g f' g' : Front} {ss : List Step} (h : Reports f s g)
    (hr : g.run ss = some f') (h' : Reports f' t g') :
    (s = .draining → t = .draining ∨ t = .closed) ∧ (s = .closed → t = .closed) := by
  obtain ⟨xs, e, ys, hx, hy, rfl⟩ := h
  obtain ⟨xs', e', ys', hx', hy', rfl⟩ := h'
  have hrest : Later e.hub.life f'.hub.life := (later_run hy).trans (later_run hr)
  refine ⟨fun hs => ?_, fun hs => ?_⟩
  · obtain ⟨-, hd⟩ := reported_eq_draining_iff.mp hs
    have hd' : e'.hub.life.draining = true := (hrest.trans (later_run hx')).draining hd
    cases hc : f'.hub.life.closed with
    | true => exact .inr (reported_eq_closed_iff.mpr hc)
    | false => exact .inl (reported_eq_draining_iff.mpr ⟨hc, hd'⟩)
  · have hc := reported_eq_closed_iff.mp hs
    exact reported_eq_closed_iff.mpr (((later_run hx).trans hrest).closed hc)

/-- **From the first start to the last stop.** However starts, stops, the firing of the token, the
end of the accept loop, arrivals and all that goes on inside follow each other, the answers and the
arrivals are orderly; the state that is reported never goes back from draining, save to closed, nor
from closed; and once a stop was answered the hub is closed and has no address, for ever. -/
theorem lifetime {policy : HubPolicy} {ss : List Step} {f : Front}
    (hr : (Front.fresh policy).run ss = some f) :
    Orderly f ∧
    (∀ s g, Reports f s g → ∀ ts f' t g', g.run ts = some f' → Reports f' t g' →
      (s = .draining → t = .draining ∨ t = .closed) ∧ (s = .closed → t = .closed)) ∧
    (∀ r, .stopped r ∈ f.answers → ∀ ts g, f.run ts = some g →
      (∀ s e, Reports g s e → s = .closed) ∧ ∀ b e, ReportsAddress g b e → b = false) := by
  have hk : Kept f := (Kept.fresh policy).run hr
  refine ⟨hk.orderly, fun s g hs ts f' t g' hts ht => hs.mono hts ht, fun r ha ts g hts => ?_⟩
  have hclosed : f.hub.life.closed = true := (hk.ended r (hk.told r ha)).1
  have hclosed : g.hub.life.closed = true := (later_run hts).closed hclosed
  constructor
  · rintro _ _ ⟨_, _, _, -, -, rfl⟩
    exact reported_eq_closed_iff.mpr hclosed
  · rintro _ _ ⟨_, -, rfl⟩
    simp [addressed, hclosed]

/-- A consumer comes, the hub is stopped twice while another consumer knocks, and it is not started
again. The first stop shows the consumer out before it comes to its end. -/
theorem lifetime_of_two_stops : ∃ ss f, (Front.fresh ⟨0, 1, 1, 1, 1⟩).run ss = some f ∧
    f.answers = [.started (.ok ()), .stopped (.ok ()), .stopped (.ok ()),
      .started (.error .alreadyStarted)] ∧
    f.guests = [⟨.inside, false⟩, ⟨.away, true⟩] ∧ f.hub.live = none ∧
    f.hub.journal = [.connected 1, .disconnected 1 stoppingReason] ∧
    Orderly f ∧ ∀ s g, Reports f s g → s = .closed := by
  have hr : (Front.fresh ⟨0, 1, 1, 1, 1⟩).run [.start (.ok ()), .knock, .look 0, .look 0,
      .enter 0 5, .stop, .inner (.drop 1 stoppingReason), .stop, .knock, .look 1, .lapse, .finish,
      .reply, .reply, .start (.ok ())] = some _ := rfl
  obtain ⟨ho, -, hend⟩ := lifetime hr
  have hstopped := hend (.ok ()) (.tail _ (.head _)) [] _ rfl
  exact ⟨_, _, hr, rfl, rfl, rfl, rfl, ho, hstopped.1⟩

end Front

end PaneRelay.Hub
