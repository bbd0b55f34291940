import PaneRelay.Proofs.Batcher.AtMostOnce
import PaneRelay.Proofs.Terminal.Closing

/-! # Two loops that share a sink

A read loop on pipes is two loops on threads of their own. Each reads its own stream, whatever comes
of the other, and hands what it gets to one sink, which is behind a lock. The thread of the output
then waits for the other one, and makes one result of both.

A loop on its own is `drain`, so what is to be shown is that the other loop and the lock change
nothing in that. The invariant is `outlook`: what a loop has handed on, followed by what it would
still hand on by itself, is at every moment what `drain` makes of all its reads.

* `Script`: what the reads of a stream return.
* `Duct`, `Duct.step`, `Duct.run`: the loops, the lock and the sink, one thing at a time.
* `run_drain`: a loop that nothing comes in between is `drain`.
* `Kept`: what every step keeps.
* `left_step`, `Kept.stuck`: how long it lasts, and where it ends.
* `fair_copy`: what the sink gets, and what the read loop returns.
* `readLoop_run`: the read loop of a program on pipes is one of these runs. -/

namespace PaneRelay.Terminal

/-! ### What is read -/

/-- **What the reads of a stream return:** chunks, each no longer than was asked for and some of them
perhaps empty, and then a failure. -/
structure Script where
  data : List ByteArray
  failure : TerminalError
  fits : ∀ c ∈ data, c.size ≤ chunkSize

namespace Script

/-- The reads, one after the other. -/
def reads (s : Script) : List (Except TerminalError ByteArray) :=
  s.data.map .ok ++ [.error s.failure]

/-- The chunks that are not empty. -/
def chunks (s : Script) : List ByteArray := s.data.filter fun c => !c.isEmpty

/-- What the failure means for a loop: the end of a stream is none. -/
def result (s : Script) : Except TerminalError Unit :=
  if s.failure = .closed then .ok () else .error s.failure

theorem drain_reads (s : Script) : drain s.reads = (s.chunks, s.result) := by
  have hlast : drain [.error s.failure] = ([], s.result) := by
    unfold result
    cases s.failure <;> rfl
  rw [reads, drain_ok_append, hlast, List.append_nil]
  rfl

theorem joined_chunks (s : Script) : Batcher.joined s.chunks = Batcher.joined s.data := by
  unfold chunks
  induction s.data with
  | nil => rfl
  | cons c cs ih =>
    rw [List.filter_cons]
    cases hc : c.isEmpty with
    | false =>
      show c ++ Batcher.joined _ = c ++ Batcher.joined cs
      rw [ih]
    | true =>
      have hnone : c = ByteArray.empty := Batcher.isEmpty_iff.mp hc
      have hcons : Batcher.joined (c :: cs) = Batcher.joined cs := by
        rw [hnone]
        exact ByteArray.empty_append
      rw [hcons]
      exact ih

/-- What is handed on is not empty, and not longer than what is asked for. -/
theorem of_mem_chunks {s : Script} {c : ByteArray} (h : c ∈ s.chunks) :
    c.isEmpty = false ∧ c.size ≤ chunkSize := by
  obtain ⟨hmem, hne⟩ := List.mem_filter.mp h
  exact ⟨by simpa using hne, s.fits c hmem⟩

theorem size_of_mem_chunksOf {size n : Nat} {data c : ByteArray} (h : c ∈ chunksOf size n data) :
    c.size ≤ size := by
  induction n generalizing data with
  | zero => cases h
  | succ n ih =>
    rw [chunksOf] at h
    split at h
    · cases h
    · rcases List.mem_cons.mp h with rfl | h
      · rw [ByteArray.size_extract]
        omega
      · exact ih h

/-- The reads of a stream with some text, after which it ends. -/
def ofText (data : ByteArray) : Script where
  data := chunksOf chunkSize (data.size + 1) data
  failure := .closed
  fits _ h := size_of_mem_chunksOf h

theorem drain_readsOf (data : ByteArray) :
    drain (readsOf data) = ((ofText data).chunks, (ofText data).result) := (ofText data).drain_reads

end Script

/-! ### The loops and the sink -/

/-- **How far one of the loops is.** -/
inductive Post where
  /-- It is about to read. -/
  | reads
  /-- It has a chunk, and waits for the sink. -/
  | waits (chunk : ByteArray)
  /-- It is in a call of the sink. -/
  | calls (chunk : ByteArray)
  /-- It has come to its end. -/
  | ended (result : Except TerminalError Unit)

/-- **One of the loops**, with the reads that it has not made yet. -/
structure Drainer where
  script : List (Except TerminalError ByteArray)
  post : Post := .reads

/-- **What a loop would still hand on by itself**, and what would come of it. A chunk that the sink is
called with was handed on already. -/
def Drainer.outlook (l : Drainer) : List ByteArray × Except TerminalError Unit :=
  match l.post with
  | .reads | .calls _ => drain l.script
  | .waits chunk => (chunk :: (drain l.script).1, (drain l.script).2)
  | .ended result => ([], result)

/-- How many steps a loop has before it at most. -/
def Drainer.left (l : Drainer) : Nat :=
  match l.post with
  | .reads | .ended _ => 3 * l.script.length
  | .waits _ => 3 * l.script.length + 2
  | .calls _ => 3 * l.script.length + 1

/-- **Two loops that share a sink.** -/
structure Duct where
  drainers : Side → Drainer
  /-- Who holds the lock of the sink. -/
  holder : Option Side := none
  /-- The calls of the sink, with the loop that made each. -/
  calls : List (Side × ByteArray) := []
  /-- What the read loop has returned. -/
  returned : Option (Except TerminalError Unit) := none

namespace Duct

/-- **What can happen.** -/
inductive Step where
  /-- A loop makes its next read. -/
  | read (s : Side)
  /-- A loop gets the lock and calls the sink. -/
  | enter (s : Side)
  /-- A call returns, and the lock is given back. -/
  | leave (s : Side)
  /-- The thread of the output has waited for the other one. -/
  | join
deriving DecidableEq

/-- Loops about to make their first reads. -/
def opened (scripts : Side → Script) : Duct where
  drainers s := { script := (scripts s).reads }

/-- The same with one of the loops elsewhere. -/
def put (d : Duct) (s : Side) (l : Drainer) : Duct :=
  { d with drainers := Function.update d.drainers s l }

/-- The same with another holder of the lock. -/
def lock (d : Duct) (holder : Option Side) : Duct := { d with holder }

/-- The same with more calls of the sink, all by one loop. -/
def hand (d : Duct) (s : Side) (chunks : List ByteArray) : Duct :=
  { d with calls := d.calls ++ chunks.map (Prod.mk s) }

/-- What a loop does with what a read returns. -/
def received : Except TerminalError ByteArray → Post
  | .ok chunk => if chunk.isEmpty then .reads else .waits chunk
  | .error .closed => .ended (.ok ())
  | .error e => .ended (.error e)

/-- **One step.** -/
def step (d : Duct) : Step → Option Duct
  | .read s =>
    match d.drainers s with
    | ⟨r :: rest, .reads⟩ => some (d.put s ⟨rest, received r⟩)
    | _ => none
  | .enter s =>
    match d.drainers s, d.holder with
    | ⟨script, .waits chunk⟩, none =>
      some (((d.put s ⟨script, .calls chunk⟩).lock (some s)).hand s [chunk])
    | _, _ => none
  | .leave s =>
    match d.drainers s with
    | ⟨script, .calls _⟩ => some ((d.put s ⟨script, .reads⟩).lock none)
    | _ => none
  | .join =>
    match (d.drainers .output).post, (d.drainers .complaint).post, d.returned with
    | .ended first, .ended second, none => some { d with returned := some (joined first second) }
    | _, _, _ => none

/-- **Any number of steps.** -/
def run (d : Duct) (steps : List Step) : Option Duct := steps.foldlM step d

@[simp] theorem run_nil (d : Duct) : d.run [] = some d := rfl

@[simp] theorem run_cons (d : Duct) (a : Step) (steps : List Step) :
    d.run (a :: steps) = (d.step a).bind fun e => e.run steps := rfl

theorem run_append (d : Duct) (as bs : List Step) :
    d.run (as ++ bs) = (d.run as).bind fun e => e.run bs := List.foldlM_append

/-- What a loop has handed to the sink. -/
def callsOn (d : Duct) (s : Side) : List ByteArray :=
  (d.calls.filter fun call => call.1 = s).map Prod.snd

/-- Whether a loop is in a call of the sink. -/
def Calling (d : Duct) (s : Side) : Prop := ∃ chunk, (d.drainers s).post = .calls chunk

/-- Whether a loop has come to its end. -/
def Ended (d : Duct) (s : Side) : Prop := ∃ result, (d.drainers s).post = .ended result

variable {d e : Duct} {scripts : Side → Script} {s t : Side}

@[simp] theorem put_self (d : Duct) (s : Side) (l : Drainer) : (d.put s l).drainers s = l :=
  Function.update_self ..

theorem put_of_ne (d : Duct) (h : t ≠ s) (l : Drainer) :
    (d.put s l).drainers t = d.drainers t := Function.update_of_ne h ..

@[simp] theorem put_put (d : Duct) (s : Side) (l m : Drainer) :
    (d.put s l).put s m = d.put s m := by
  simp [put]

@[simp] theorem lock_put (d : Duct) (holder : Option Side) (s : Side) (l : Drainer) :
    (d.lock holder).put s l = (d.put s l).lock holder := rfl

@[simp] theorem hand_put (d : Duct) (s t : Side) (chunks : List ByteArray) (l : Drainer) :
    (d.hand t chunks).put s l = (d.put s l).hand t chunks := rfl

@[simp] theorem hand_lock (d : Duct) (s : Side) (chunks : List ByteArray)
    (holder : Option Side) : (d.hand s chunks).lock holder = (d.lock holder).hand s chunks := rfl

@[simp] theorem lock_lock (d : Duct) (holder holder' : Option Side) :
    (d.lock holder).lock holder' = d.lock holder' := rfl

@[simp] theorem drainers_hand (d : Duct) (s : Side) (chunks : List ByteArray) :
    (d.hand s chunks).drainers = d.drainers := rfl

@[simp] theorem hand_nil (d : Duct) (s : Side) : d.hand s [] = d := by
  simp [hand]

@[simp] theorem hand_hand (d : Duct) (s : Side) (cs ds : List ByteArray) :
    (d.hand s cs).hand s ds = d.hand s (cs ++ ds) := by
  simp [hand]

/-! ### What a step does -/

theorem step_read {r : Except TerminalError ByteArray}
    {rest : List (Except TerminalError ByteArray)} (hd : d.drainers s = ⟨r :: rest, .reads⟩) :
    d.step (.read s) = some (d.put s ⟨rest, received r⟩) := by
  simp only [step, hd]

theorem step_enter {script : List (Except TerminalError ByteArray)} {chunk : ByteArray}
    (hd : d.drainers s = ⟨script, .waits chunk⟩) (hh : d.holder = none) : d.step (.enter s) =
      some (((d.put s ⟨script, .calls chunk⟩).lock (some s)).hand s [chunk]) := by
  simp only [step, hd, hh]

theorem step_leave {script : List (Except TerminalError ByteArray)} {chunk : ByteArray}
    (hd : d.drainers s = ⟨script, .calls chunk⟩) :
    d.step (.leave s) = some ((d.put s ⟨script, .reads⟩).lock none) := by
  simp only [step, hd]

theorem step_join {first second : Except TerminalError Unit}
    (hout : (d.drainers .output).post = .ended first)
    (hcomplaint : (d.drainers .complaint).post = .ended second) (hr : d.returned = none) :
    d.step .join = some { d with returned := some (joined first second) } := by
  simp only [step, hout, hcomplaint, hr]

/-- **All that a step can do.** -/
inductive Change (d : Duct) : Step → Duct → Prop where
  | read {s : Side} {r : Except TerminalError ByteArray}
    {rest : List (Except TerminalError ByteArray)} (hd : d.drainers s = ⟨r :: rest, .reads⟩) :
    Change d (.read s) (d.put s ⟨rest, received r⟩)
  | enter {s : Side} {script : List (Except TerminalError ByteArray)} {chunk : ByteArray}
    (hd : d.drainers s = ⟨script, .waits chunk⟩) (hh : d.holder = none) :
    Change d (.enter s) (((d.put s ⟨script, .calls chunk⟩).lock (some s)).hand s [chunk])
  | leave {s : Side} {script : List (Except TerminalError ByteArray)} {chunk : ByteArray}
    (hd : d.drainers s = ⟨script, .calls chunk⟩) :
    Change d (.leave s) ((d.put s ⟨script, .reads⟩).lock none)
  | join {first second : Except TerminalError Unit}
    (hout : (d.drainers .output).post = .ended first)
    (hcomplaint : (d.drainers .complaint).post = .ended second) (hr : d.returned = none) :
    Change d .join { d with returned := some (joined first second) }

theorem step_change {a : Step} (h : d.step a = some e) : Change d a e := by
  cases a with
  | read s =>
    unfold step at h
    dsimp only at h
    split at h
    · next hd =>
      obtain rfl := Option.some.inj h
      exact .read hd
    · cases h
  | enter s =>
    unfold step at h
    dsimp only at h
    split at h
    · next hd hh =>
      obtain rfl := Option.some.inj h
      exact .enter hd hh
    · cases h
  | leave s =>
    unfold step at h
    dsimp only at h
    split at h
    · next hd =>
      obtain rfl := Option.some.inj h
      exact .leave hd
    · cases h
  | join =>
    unfold step at h
    dsimp only at h
    split at h
    · next hout hcomplaint hr =>
      obtain rfl := Option.some.inj h
      exact .join hout hcomplaint hr
    · cases h

/-! ### A loop that nothing comes in between -/

/-- **A loop that has the sink for itself is `drain`**, by induction on its reads. -/
theorem run_drain {script : List (Except TerminalError ByteArray)}
    (hd : d.drainers s = ⟨script, .reads⟩) (hh : d.holder = none)
    (herr : ∃ x, .error x ∈ script) :
    ∃ steps rest, d.run steps =
      some ((d.put s ⟨rest, .ended (drain script).2⟩).hand s (drain script).1) := by
  induction script generalizing d with
  | nil =>
    obtain ⟨x, hx⟩ := herr
    cases hx
  | cons r script ih =>
    have hread := step_read hd
    cases r with
    | error x =>
      refine ⟨[.read s], script, ?_⟩
      rw [run_cons, hread]
      cases x <;> simp [received, drain]
    | ok chunk =>
      have herr' : ∃ x, .error x ∈ script := by
        simpa using herr
      cases hc : chunk.isEmpty with
      | true =>
        have hpost : received (.ok chunk) = .reads := if_pos hc
        rw [hpost] at hread
        obtain ⟨steps, rest, hrun⟩ := ih (put_self ..) hh herr'
        refine ⟨.read s :: steps, rest, ?_⟩
        rw [run_cons, hread, Option.bind_some, hrun]
        simp [drain, hc]
      | false =>
        have hpost : received (.ok chunk) = .waits chunk := if_neg (by simp [hc])
        rw [hpost] at hread
        have henter := step_enter (put_self d s ⟨script, .waits chunk⟩) hh
        have hleave := step_leave (put_self ((d.put s ⟨script, .waits chunk⟩).lock (some s)
          |>.hand s [chunk]) s ⟨script, .calls chunk⟩)
        obtain ⟨steps, rest, hrun⟩ := ih (d := (d.put s ⟨script, .reads⟩).lock none |>.hand s [chunk])
          (put_self ..) rfl herr'
        refine ⟨.read s :: .enter s :: .leave s :: steps, rest, ?_⟩
        simp only [put_put, lock_put, hand_put, hand_lock, lock_lock] at henter hleave hrun
        rw [run_cons, hread, Option.bind_some, run_cons, henter, Option.bind_some, run_cons, hleave,
          Option.bind_some, hrun]
        have hfree : (d.put s ⟨rest, .ended (drain script).2⟩).lock none =
            d.put s ⟨rest, .ended (drain script).2⟩ := by
          rw [← hh]
          rfl
        simp [drain, hc, hfree]

/-! ### What every step keeps -/

/-- A read goes on as `drain` does. -/
theorem outlook_received (r : Except TerminalError ByteArray)
    (rest : List (Except TerminalError ByteArray)) :
    Drainer.outlook ⟨rest, received r⟩ = drain (r :: rest) := by
  cases r with
  | error x => cases x <;> rfl
  | ok chunk =>
    have hpost : received (.ok chunk) = if chunk.isEmpty then .reads else .waits chunk := rfl
    rw [hpost, drain]
    cases chunk.isEmpty <;> rfl

theorem callsOn_hand (d : Duct) (s : Side) (chunks : List ByteArray) (t : Side) :
    (d.hand s chunks).callsOn t = d.callsOn t ++ if s = t then chunks else [] := by
  have hnew : ((chunks.map (Prod.mk s)).filter fun call => call.1 = t).map Prod.snd =
      if s = t then chunks else [] := by
    by_cases hst : s = t
    · simp [List.filter_map, Function.comp_def, hst]
    · simp [List.filter_map, Function.comp_def, hst]
  simp [callsOn, hand, List.filter_append, hnew]

/-- **What every step keeps.** -/
structure Kept (scripts : Side → Script) (d : Duct) : Prop where
  /-- What a loop has handed on and would still hand on is what it hands on by itself. -/
  account : ∀ s, drain (scripts s).reads =
    (d.callsOn s ++ (d.drainers s).outlook.1, (d.drainers s).outlook.2)
  /-- Who calls the sink holds its lock. -/
  locked : ∀ s, d.Calling s ↔ d.holder = some s
  /-- A loop that goes on has its failure before it. -/
  ends : ∀ s, ¬ d.Ended s → ∃ x, .error x ∈ (d.drainers s).script
  /-- What is returned is made of the results of both loops. -/
  joint : ∀ r, d.returned = some r → ∃ first second,
    (d.drainers .output).post = .ended first ∧ (d.drainers .complaint).post = .ended second ∧
      r = joined first second

theorem kept_opened (scripts : Side → Script) : (opened scripts).Kept scripts where
  account _ := rfl
  locked s := iff_of_false (by rintro ⟨chunk, hc⟩; cases hc) (by rintro ⟨⟩)
  ends s _ := ⟨(scripts s).failure, by simp [opened, Script.reads]⟩
  joint r hr := by cases hr

/-- A loop that has not come to its end moves, and the rest stays as it is. -/
theorem Kept.move (h : d.Kept scripts) (l : Drainer) (holder : Option Side)
    (chunks : List ByteArray) (hgoes : ¬ d.Ended s)
    (hlook : (d.drainers s).outlook = (chunks ++ l.outlook.1, l.outlook.2))
    (hself : (∃ chunk, l.post = .calls chunk) ↔ holder = some s)
    (hothers : ∀ t, t ≠ s → (d.holder = some t ↔ holder = some t))
    (hends : (¬ ∃ result, l.post = .ended result) → ∃ x, .error x ∈ l.script) :
    (((d.put s l).lock holder).hand s chunks).Kept scripts := by
  have hsame : ∀ t, t ≠ s → (((d.put s l).lock holder).hand s chunks).drainers t =
      d.drainers t := fun t ht => put_of_ne d ht l
  have hnew : (((d.put s l).lock holder).hand s chunks).drainers s = l := put_self ..
  constructor
  · intro t
    rw [callsOn_hand]
    show _ = (d.callsOn t ++ _ ++ _, _)
    by_cases ht : t = s
    · subst ht
      rw [hnew, if_pos rfl, h.account, hlook, List.append_assoc]
    · rw [hsame t ht, if_neg (Ne.symm ht), List.append_nil]
      exact h.account t
  · intro t
    unfold Calling
    by_cases ht : t = s
    · subst ht
      rw [hnew]
      exact hself
    · rw [hsame t ht]
      exact (h.locked t).trans (hothers t ht)
  · intro t hgo
    unfold Ended at hgo
    by_cases ht : t = s
    · subst ht
      rw [hnew] at hgo ⊢
      exact hends hgo
    · rw [hsame t ht] at hgo ⊢
      exact h.ends t hgo
  · intro r hr
    -- nothing is returned as long as a loop goes on
    obtain ⟨first, second, hout, hcomplaint, -⟩ := h.joint r hr
    refine absurd ?_ hgoes
    cases s with
    | output => exact ⟨first, hout⟩
    | complaint => exact ⟨second, hcomplaint⟩

/-- A loop is where it is. -/
theorem not_ended_of {script : List (Except TerminalError ByteArray)} {post : Post}
    (hd : d.drainers s = ⟨script, post⟩) (hp : ∀ result, post ≠ .ended result) : ¬ d.Ended s := by
  rintro ⟨result, he⟩
  rw [hd] at he
  exact hp result he

/-- **Every step keeps it.** -/
theorem Kept.step (h : d.Kept scripts) {a : Step} (hs : d.step a = some e) : e.Kept scripts := by
  cases step_change hs with
  | @read s r rest hd =>
    have hgoes : ¬ d.Ended s := not_ended_of hd nofun
    have hfree : ¬ d.holder = some s := by
      rw [← h.locked s]
      rintro ⟨chunk, hc⟩
      rw [hd] at hc
      cases hc
    obtain ⟨x, hx⟩ := h.ends s hgoes
    rw [hd] at hx
    have hmove := h.move ⟨rest, received r⟩ d.holder [] hgoes
      (by rw [hd, outlook_received]; rfl)
      (iff_of_false (by
        rintro ⟨chunk, hc⟩
        cases r with
        | error x => cases x <;> cases hc
        | ok c =>
          simp only [received] at hc
          split at hc <;> cases hc) hfree)
      (fun _ _ => Iff.rfl)
      (fun hgo => by
        cases r with
        | error y => exact absurd (by cases y <;> exact ⟨_, rfl⟩) hgo
        | ok c => exact ⟨x, by simpa using hx⟩)
    rwa [hand_nil] at hmove
  | @enter s script chunk hd hh =>
    have hgoes : ¬ d.Ended s := not_ended_of hd nofun
    refine h.move _ _ _ hgoes (by rw [hd]; rfl) (iff_of_true ⟨chunk, rfl⟩ rfl) (fun t ht => ?_)
      (fun _ => ?_)
    · rw [hh]
      exact iff_of_false (by simp) (by simpa using Ne.symm ht)
    · obtain ⟨x, hx⟩ := h.ends s hgoes
      rw [hd] at hx
      exact ⟨x, hx⟩
  | @leave s script chunk hd =>
    have hgoes : ¬ d.Ended s := not_ended_of hd nofun
    have hheld : d.holder = some s := (h.locked s).mp ⟨chunk, by rw [hd]⟩
    have hmove := h.move ⟨script, .reads⟩ none [] hgoes
      (by rw [hd]; rfl) (iff_of_false (by rintro ⟨c, hc⟩; cases hc) (by simp))
      (fun t ht => by
        rw [hheld]
        exact iff_of_false (by simpa using Ne.symm ht) (by simp))
      (fun _ => by
        obtain ⟨x, hx⟩ := h.ends s hgoes
        rw [hd] at hx
        exact ⟨x, hx⟩)
    rwa [hand_nil] at hmove
  | @join first second hout hcomplaint hr =>
    refine ⟨h.account, h.locked, h.ends, fun r hr => ?_⟩
    obtain rfl := Option.some.inj hr
    exact ⟨first, second, hout, hcomplaint, rfl⟩

theorem Kept.run (h : d.Kept scripts) {steps : List Step} (hr : d.run steps = some e) :
    e.Kept scripts :=
  foldlM_induct (fun _ _ _ hk hs => hk.step hs) h hr

/-! ### How long it lasts -/

/-- **How many steps there are left** at most. -/
def left (d : Duct) : Nat :=
  (d.drainers .output).left + (d.drainers .complaint).left + if d.returned.isSome then 0 else 1

theorem left_put (d : Duct) (s : Side) (l : Drainer) :
    (d.put s l).left + (d.drainers s).left = d.left + l.left := by
  have hreturned : (d.put s l).returned = d.returned := rfl
  unfold left
  rw [hreturned]
  cases s with
  | output =>
    rw [put_self, put_of_ne d (by decide)]
    omega
  | complaint =>
    rw [put_self, put_of_ne d (by decide)]
    omega

theorem left_received (r : Except TerminalError ByteArray)
    (rest : List (Except TerminalError ByteArray)) :
    Drainer.left ⟨rest, received r⟩ < Drainer.left ⟨r :: rest, .reads⟩ := by
  have hrest : 3 * rest.length + 2 < 3 * (r :: rest).length := by
    rw [List.length_cons]
    omega
  refine Nat.lt_of_le_of_lt ?_ hrest
  cases r with
  | error x => cases x <;> exact Nat.le_add_right ..
  | ok chunk =>
    simp only [received]
    split
    · exact Nat.le_add_right ..
    · exact Nat.le_refl _

/-- Each step leaves fewer. -/
theorem left_step {a : Step} (h : d.step a = some e) : e.left < d.left := by
  cases step_change h with
  | @read s r rest hd =>
    have hput := left_put d s ⟨rest, received r⟩
    have hless := left_received r rest
    rw [hd] at hput
    omega
  | @enter s script chunk hd =>
    have hput := left_put d s ⟨script, .calls chunk⟩
    rw [hd] at hput
    simp only [Drainer.left] at hput
    show (d.put s ⟨script, .calls chunk⟩).left < d.left
    omega
  | @leave s script chunk hd =>
    have hput := left_put d s ⟨script, .reads⟩
    rw [hd] at hput
    simp only [Drainer.left] at hput
    show (d.put s ⟨script, .reads⟩).left < d.left
    omega
  | join _ _ hr =>
    unfold left
    simp [hr]

theorem left_run {steps : List Step} (hr : d.run steps = some e) :
    steps.length + e.left ≤ d.left :=
  foldlM_length_le (fun _ _ _ _ hs => ⟨trivial, left_step hs⟩) trivial hr

/-- A loop that goes on can make a step, unless the other one is in the sink. -/
theorem Kept.exists_step (h : d.Kept scripts) (hh : d.holder = none) (hgoes : ¬ d.Ended s) :
    ∃ a e, d.step a = some e := by
  rcases hd : d.drainers s with ⟨script, post⟩
  cases post with
  | reads =>
    obtain ⟨x, hx⟩ := h.ends s hgoes
    rw [hd] at hx
    cases script with
    | nil => cases hx
    | cons r rest => exact ⟨_, _, step_read hd⟩
  | waits chunk => exact ⟨_, _, step_enter hd hh⟩
  | calls chunk => exact ⟨_, _, step_leave hd⟩
  | ended result => exact absurd ⟨result, by rw [hd]⟩ hgoes

/-- **Where nothing can happen any more**, the read loop has returned. -/
theorem Kept.stuck (h : d.Kept scripts) (hstuck : ∀ a, d.step a = none) :
    d.returned.isSome = true := by
  have hnone : d.holder = none := by
    -- who is in the sink can leave it
    by_contra hh
    obtain ⟨s, hs⟩ := Option.ne_none_iff_exists'.mp hh
    obtain ⟨chunk, hc⟩ := (h.locked s).mpr hs
    rcases hd : d.drainers s with ⟨script, post⟩
    rw [hd] at hc
    obtain rfl : post = .calls chunk := hc
    have hleave := step_leave hd
    rw [hstuck] at hleave
    cases hleave
  have hended : ∀ s, d.Ended s := by
    intro s
    by_contra hgoes
    obtain ⟨a, e, he⟩ := h.exists_step hnone hgoes
    rw [hstuck] at he
    cases he
  obtain ⟨first, hout⟩ := hended .output
  obtain ⟨second, hcomplaint⟩ := hended .complaint
  cases hr : d.returned with
  | some r => rfl
  | none =>
    have hjoin := step_join hout hcomplaint hr
    rw [hstuck] at hjoin
    cases hjoin

/-! ### What the sink gets -/

theorem interleaved_calls (calls : List (Side × ByteArray)) :
    Interleaved ((calls.filter fun call => call.1 = .output).map Prod.snd)
      ((calls.filter fun call => call.1 = .complaint).map Prod.snd) (calls.map Prod.snd) := by
  induction calls with
  | nil => exact .nil
  | cons call calls ih =>
    obtain ⟨s, chunk⟩ := call
    cases s with
    | output => exact .left ih
    | complaint => exact .right ih

theorem mem_callsOn {call : Side × ByteArray} (h : call ∈ d.calls) :
    call.2 ∈ d.callsOn call.1 :=
  List.mem_map_of_mem (List.mem_filter.mpr ⟨h, by simp⟩)

theorem Kept.callsOn_prefix (h : d.Kept scripts) (s : Side) :
    d.callsOn s <+: (scripts s).chunks := by
  have haccount := h.account s
  rw [Script.drain_reads] at haccount
  exact ⟨_, (congrArg Prod.fst haccount).symm⟩

/-- A loop that has come to its end has handed on all, and its result is that of its failure. -/
theorem Kept.of_ended (h : d.Kept scripts) {result : Except TerminalError Unit}
    (he : (d.drainers s).post = .ended result) :
    d.callsOn s = (scripts s).chunks ∧ result = (scripts s).result := by
  have haccount := h.account s
  have hlook : (d.drainers s).outlook = ([], result) := by
    unfold Drainer.outlook
    rw [he]
  rw [Script.drain_reads, hlook, List.append_nil] at haccount
  obtain ⟨hchunks, hresult⟩ := Prod.mk.inj haccount
  exact ⟨hchunks.symm, hresult.symm⟩

/-- Once the read loop has returned, both loops have handed on all, and their results are joined. -/
theorem Kept.of_returned (h : d.Kept scripts) {r : Except TerminalError Unit}
    (hr : d.returned = some r) : (∀ s, d.callsOn s = (scripts s).chunks) ∧
    r = joined (scripts .output).result (scripts .complaint).result := by
  obtain ⟨first, second, hout, hcomplaint, rfl⟩ := h.joint r hr
  obtain ⟨hall, rfl⟩ := h.of_ended hout
  obtain ⟨hall', rfl⟩ := h.of_ended hcomplaint
  refine ⟨fun s => ?_, rfl⟩
  cases s with
  | output => exact hall
  | complaint => exact hall'

theorem joined_result (first second : Script) :
    (joined first.result second.result = .ok () ↔
      first.failure = .closed ∧ second.failure = .closed) ∧
    (first.failure ≠ .closed → joined first.result second.result = .error first.failure) ∧
    (first.failure = .closed → second.failure ≠ .closed →
      joined first.result second.result = .error second.failure) := by
  unfold Script.result
  by_cases hfirst : first.failure = .closed
  · by_cases hsecond : second.failure = .closed
    · simp [hfirst, hsecond, joined]
    · simp [hfirst, hsecond, joined]
  · simp [hfirst, joined]

/-- **A fair copy.** However the two loops take turns, their calls of the sink never overlap, and each
hands on a chunk of its stream that is neither empty nor too long, the next one in the order of the
stream. After so many steps at most the read loop has returned. Both loops have come to their ends
then, whatever came of the other one; the calls are an interleaving of the chunks of both streams,
of which none is missing; and all is well just if both streams were at their ends, while else the
failure of the output is returned, or that of the complaints if the output was at its end. -/
theorem fair_copy {steps : List Step} (hr : (opened scripts).run steps = some d) :
    (∀ s t, d.Calling s → d.Calling t → s = t) ∧
    (∀ s, d.callsOn s <+: (scripts s).chunks) ∧
    (∀ call ∈ d.calls, call.2.isEmpty = false ∧ call.2.size ≤ chunkSize) ∧
    steps.length ≤
      3 * ((scripts .output).reads.length + (scripts .complaint).reads.length) + 1 ∧
    ((∀ a, d.step a = none) → d.returned.isSome = true) ∧
    ∀ r, d.returned = some r →
      (∀ s, d.Ended s) ∧
      Interleaved (scripts .output).chunks (scripts .complaint).chunks (d.calls.map Prod.snd) ∧
      (∀ s, d.callsOn s = (scripts s).chunks ∧
        Batcher.joined (d.callsOn s) = Batcher.joined (scripts s).data) ∧
      (r = .ok () ↔
        (scripts .output).failure = .closed ∧ (scripts .complaint).failure = .closed) ∧
      ((scripts .output).failure ≠ .closed → r = .error (scripts .output).failure) ∧
      ((scripts .output).failure = .closed → (scripts .complaint).failure ≠ .closed →
        r = .error (scripts .complaint).failure) := by
  have h : d.Kept scripts := (kept_opened scripts).run hr
  refine ⟨fun s t hs ht => ?_, h.callsOn_prefix, fun call hcall => ?_, ?_, h.stuck, ?_⟩
  · have hholder := (h.locked s).mp hs
    rw [(h.locked t).mp ht] at hholder
    exact (Option.some.inj hholder).symm
  · exact Script.of_mem_chunks ((h.callsOn_prefix call.1).subset (mem_callsOn hcall))
  · have hleft := left_run hr
    have hall : (opened scripts).left =
        3 * (scripts .output).reads.length + 3 * (scripts .complaint).reads.length + 1 := rfl
    omega
  · intro r hr
    obtain ⟨hcopied, rfl⟩ := h.of_returned hr
    have hmerged := interleaved_calls d.calls
    refine ⟨fun s => ?_, ?_, fun s => ⟨hcopied s, ?_⟩, joined_result _ _⟩
    · obtain ⟨first, second, hout, hcomplaint, -⟩ := h.joint _ hr
      cases s with
      | output => exact ⟨first, hout⟩
      | complaint => exact ⟨second, hcomplaint⟩
    · rw [← hcopied .output, ← hcopied .complaint]
      exact hmerged
    · rw [hcopied s, Script.joined_chunks]

/-- An output with an empty read in it, and complaints whose reads fail early. -/
def uneven : Side → Script
  | .output => ⟨[⟨#[97]⟩, ⟨#[]⟩, ⟨#[98]⟩], .closed, by decide⟩
  | .complaint => ⟨[⟨#[120]⟩], .failed .permissionDenied "denied", by decide⟩

/-- The output has read first, but the complaint gets to the sink before it. -/
def turns : List Step :=
  [.read .output, .read .complaint, .enter .complaint, .leave .complaint, .enter .output,
    .read .complaint, .leave .output, .read .output, .read .output, .enter .output, .leave .output,
    .read .output, .join]

theorem fair_copy_uneven : ∃ d, (opened uneven).run turns = some d ∧
    d.calls = [(.complaint, ⟨#[120]⟩), (.output, ⟨#[97]⟩), (.output, ⟨#[98]⟩)] ∧
    d.returned = some (.error (.failed .permissionDenied "denied")) ∧
    Interleaved [⟨#[97]⟩, ⟨#[98]⟩] [⟨#[120]⟩] (d.calls.map Prod.snd) := by
  have hrun : (opened uneven).run turns = some _ := rfl
  obtain ⟨-, -, -, -, -, hend⟩ := fair_copy hrun
  obtain ⟨-, hmerged, -, -, -, hfailed⟩ := hend _ rfl
  exact ⟨_, hrun, rfl, congrArg some (hfailed rfl (by decide)), hmerged⟩

/-! ### A program on pipes -/

/-- **One loop after the other** is one of the ways that they can take turns. -/
theorem exists_run (scripts : Side → Script) :
    ∃ steps d r, (opened scripts).run steps = some d ∧ d.returned = some r := by
  have herr : ∀ s, ∃ x, .error x ∈ (scripts s).reads :=
    fun s => ⟨(scripts s).failure, by simp [Script.reads]⟩
  obtain ⟨steps, rest, hfirst⟩ := run_drain (d := opened scripts) (s := .output) rfl rfl (herr _)
  rw [Script.drain_reads] at hfirst
  obtain ⟨d, hd⟩ : ∃ d, d = ((opened scripts).put .output
    ⟨rest, .ended (scripts .output).result⟩).hand .output (scripts .output).chunks := ⟨_, rfl⟩
  have hout : d.drainers .output = ⟨rest, .ended (scripts .output).result⟩ := by
    rw [hd, drainers_hand, put_self]
  have hcomplaint : d.drainers .complaint = ⟨(scripts .complaint).reads, .reads⟩ := by
    rw [hd, drainers_hand, put_of_ne _ (by decide)]
    rfl
  obtain ⟨steps', rest', hsecond⟩ := run_drain hcomplaint (by rw [hd]; rfl) (herr _)
  rw [Script.drain_reads] at hsecond
  obtain ⟨e, he⟩ : ∃ e, e = (d.put .complaint
    ⟨rest', .ended (scripts .complaint).result⟩).hand .complaint (scripts .complaint).chunks :=
    ⟨_, rfl⟩
  have hjoin : e.step .join = some { e with
      returned := some (joined (scripts .output).result (scripts .complaint).result) } :=
    step_join (by rw [he, drainers_hand, put_of_ne d (by decide), hout])
      (by rw [he, drainers_hand, put_self]) (by rw [he, hd]; rfl)
  have hrun : (opened scripts).run (steps ++ (steps' ++ [.join])) = some { e with
      returned := some (joined (scripts .output).result (scripts .complaint).result) } := by
    rw [run_append, hfirst, ← hd, Option.bind_some, run_append, hsecond, ← he, Option.bind_some,
      run_cons, hjoin]
    rfl
  exact ⟨_, _, _, hrun, rfl⟩

/-- **The read loop of a program on pipes** is such a copy, of texts at whose ends the streams
end. -/
theorem readLoop_run {p q : Pipes} {outs complaints : List ByteArray}
    {r : Except TerminalError Unit} (h : p.readLoop = (some (outs, complaints, r), q)) :
    ∃ texts : Side → ByteArray, ∃ steps d,
      (opened fun s => .ofText (texts s)).run steps = some d ∧ d.callsOn .output = outs ∧
        d.callsOn .complaint = complaints ∧ d.returned = some r := by
  obtain ⟨texts, hout, hcomplaint, hr⟩ : ∃ texts : Side → ByteArray,
      (Script.ofText (texts .output)).chunks = outs ∧
      (Script.ofText (texts .complaint)).chunks = complaints ∧
      joined (Script.ofText (texts .output)).result (Script.ofText (texts .complaint)).result =
        r := by
    unfold Pipes.readLoop at h
    split at h
    · dsimp only at h
      split at h
      · cases h
      · simp only [Script.drain_readsOf, Prod.mk.injEq, Option.some.injEq] at h
        obtain ⟨⟨hout, hcomplaint, hr⟩, -⟩ := h
        exact ⟨fun | .output => _ | .complaint => _, hout, hcomplaint, hr⟩
    · simp only [Prod.mk.injEq, Option.some.injEq] at h
      obtain ⟨⟨rfl, rfl, rfl⟩, -⟩ := h
      exact ⟨fun _ => ByteArray.empty, rfl, rfl, rfl⟩
  obtain ⟨steps, d, r', hrun, hr'⟩ := exists_run fun s => .ofText (texts s)
  obtain ⟨hcalls, rfl⟩ := ((kept_opened _).run hrun).of_returned hr'
  refine ⟨texts, steps, d, hrun, ?_, ?_, ?_⟩
  · rw [hcalls, hout]
  · rw [hcalls, hcomplaint]
  · rw [hr', hr]

end Duct

end PaneRelay.Terminal
