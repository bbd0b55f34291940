import PaneRelay.Proofs.Batcher.Work

/-! # Full buffers

A write that fills a buffer stores a wake-up, and the writes behind it store no other one. That is
enough: whoever takes the wake-up makes a round, and a round empties every full buffer before the
first chunk reaches the sink, so that it does not matter whether the sink fails, nor how many buffers
are full. Until then the wake-up stays, through pauses, restarts and the end of the loop.

* `Heard`, `run_heard`: as long as a buffer is full, a wake-up is stored.
* `isWaiting`: the loop runs and waits, so no wake-up is stored and no buffer is full.
* `unsent`, `buffered_run`: what waits is what was written since the last call for the pane.
* `full_buffer_heard`: both, and what a write that fills a buffer brings about. -/

namespace PaneRelay.Batcher

/-- Whether the buffer of a pane is full. -/
def IsFull (b : Batcher) (p : PaneId) : Prop := b.policy.maxBytes ≤ (buffered b.panes p).size

/-- **Full buffers are heard of:** as long as there is one, a wake-up is stored. One that was handed to
the loop counts as stored until the loop takes it. -/
def Heard (b : Batcher) : Prop := ∀ p, b.IsFull p → b.wake = true

/-! ### What becomes of full buffers -/

/-- What waits in an empty buffer does not fill it. -/
theorem not_isFull_of_empty {b : Batcher} {p : PaneId} (hmax : 1 ≤ b.policy.maxBytes)
    (h : buffered b.panes p = ByteArray.empty) : ¬ b.IsFull p := by
  unfold IsFull
  rw [h, ByteArray.size_empty]
  omega

/-- **A round leaves no full buffer.** -/
theorem not_isFull_round {b : Batcher} (hmax : 1 ≤ b.policy.maxBytes) (p : PaneId) :
    ¬ (b.drain .round).2.IsFull p := by
  unfold IsFull
  rw [drain_policy, drain_panes]
  show ¬ b.policy.maxBytes ≤ (buffered (clearWhere (Buffer.isDue b.policy b.now) b.panes) p).size
  rw [buffered, find?_clearWhere]
  cases b.panes.find? p with
  | none =>
    show ¬ b.policy.maxBytes ≤ 0
    omega
  | some buffer =>
    rw [Option.map_some]
    show ¬ b.policy.maxBytes ≤ (if !buffer.isIdle && buffer.isDue b.policy b.now then buffer.cleared
      else buffer).data.size
    split
    · show ¬ b.policy.maxBytes ≤ 0
      omega
    · next hready =>
      intro hfull
      -- a full buffer holds bytes and is due
      have hdue : buffer.isDue b.policy b.now = true := by
        unfold Buffer.isDue
        rw [decide_eq_true hfull]
        rfl
      have hidle : buffer.isIdle = true := by simpa [hdue] using hready
      rw [Buffer.isIdle_iff.mp hidle, ByteArray.size_empty] at hfull
      omega

/-- A buffer that is full after a drain was full before. -/
theorem isFull_of_drain {b : Batcher} {d : Drain} {p : PaneId} (hmax : 1 ≤ b.policy.maxBytes)
    (h : (b.drain d).2.IsFull p) : b.IsFull p := by
  have hfull := h
  unfold IsFull at h
  rw [drain_policy, drain_panes] at h
  rcases dataOf_drained b d p with ⟨-, hrest⟩ | ⟨-, -, hrest⟩
  · rwa [hrest] at h
  · refine absurd hfull (not_isFull_of_empty (by rwa [drain_policy]) ?_)
    rw [drain_panes]
    exact hrest

theorem Work.heard {b b' : Batcher} (h : Work b b') (hmax : 1 ≤ b.policy.maxBytes)
    (hb : Heard b) : Heard b' := by
  intro p hp
  cases h with
  | aside later => exact hb p hp
  | drain d =>
    rw [drain_wake]
    exact hb p (isFull_of_drain hmax hp)
  | heed => exact absurd hp (not_isFull_round hmax p)
  | shut => exact absurd hp (not_isFull_of_empty (by rwa [drain_policy])
      (buffered_clearAll b.panes p))

/-- **The write that fills a buffer** stores a wake-up. -/
theorem Heard.write {b : Batcher} (h : Heard b) (hb : b.Pooled) (p : PaneId) (d : ByteArray) :
    Heard (b.write p d).2 := by
  have hw := written_of_write hb p d
  generalize b.write p d = r at hw
  cases hw with
  | nothing => exact h
  | passed => exact h
  | added solid stopped spare =>
    intro q hq
    have hkeep : b.IsFull q → (b.crosses p d || ((b.bufferOf p).isIdle && b.idle) || b.wake) = true :=
      fun hfull => by rw [h q hfull, Bool.or_true]
    show (b.crosses p d || ((b.bufferOf p).isIdle && b.idle) || b.wake) = true
    unfold IsFull buffered at hq
    simp only [PaneMap.find?_insert] at hq
    by_cases hqp : q = p
    · subst hqp
      by_cases hfull : b.IsFull q
      · exact hkeep hfull
      · -- it was not full before, so this write has filled it
        rw [if_pos rfl] at hq
        replace hq : b.policy.maxBytes ≤ ((b.bufferOf q).data ++ d).size := hq
        rw [bufferOf_data, ByteArray.size_append] at hq
        have hcrosses : b.crosses q d = true := by
          unfold crosses
          unfold IsFull at hfull
          rw [decide_eq_true (Nat.lt_of_not_le hfull), decide_eq_true hq]
          rfl
        rw [hcrosses]
        rfl
    · rw [if_neg hqp] at hq
      exact hkeep hq

/-- **As long as a buffer is full, a wake-up is stored.** -/
theorem run_heard {b : Batcher} (ht : Tidy b) (hmax : 1 ≤ b.policy.maxBytes) (hb : Heard b)
    (ms : List Move) : Heard (b.run ms) := by
  have h := ht.run_induct (P := fun b => 1 ≤ b.policy.maxBytes ∧ Heard b)
    (fun hw ⟨hmax, hb⟩ => ⟨by rwa [hw.policy_eq], hw.heard hmax hb⟩)
    (fun p d ht ⟨hmax, hb⟩ => ⟨by rwa [write_policy], hb.write ht.pool p d⟩) ⟨hmax, hb⟩ ms
  exact h.2.2

theorem heard_fresh {policy : BatchPolicy} (hmax : 1 ≤ policy.maxBytes) (restart : RestartPolicy)
    (fate : Nat → Option String) : Heard (fresh policy restart fate) :=
  fun _ hp => absurd hp (not_isFull_of_empty hmax rfl)

/-! ### A loop that waits -/

/-- **Whether the loop runs and waits:** an attempt is under way and has nothing to do. -/
def isWaiting (b : Batcher) : Bool :=
  match b.task with
  | .active loop _ _ => loop.isRunning && b.turn.isNone
  | _ => false

/-- A loop that waits was not cancelled, and no wake-up is stored for it. -/
theorem isWaiting_cases {b : Batcher} (h : b.isWaiting = true) :
    ∃ loop period deadline since, b.task = .active loop period deadline ∧
      loop.phase = .running since ∧ b.cancelled = false ∧ b.wake = false := by
  unfold isWaiting at h
  split at h
  · next loop period deadline htask =>
    obtain ⟨hrun, hturn⟩ := Bool.and_eq_true_iff.mp h
    unfold Supervisor.State.isRunning at hrun
    split at hrun
    · next since hphase =>
      refine ⟨loop, period, deadline, since, htask, hphase, ?_, ?_⟩
      · cases hc : b.cancelled with
        | false => rfl
        | true =>
          unfold turn at hturn
          simp [htask, hphase, hc] at hturn
      · cases hw : b.wake with
        | false => rfl
        | true =>
          unfold turn at hturn
          cases hc : b.cancelled <;> simp [htask, hphase, hc, hw] at hturn
    · cases hrun
  · cases h

/-- A loop that runs takes a wake-up at once. -/
theorem turn_of_wake {b : Batcher} {loop : Supervisor.State} {period deadline since : Nat}
    (htask : b.task = .active loop period deadline) (hphase : loop.phase = .running since)
    (hcancel : b.cancelled = false) (hwake : b.wake = true) :
    b.turn = some (look { b with wake := false } loop period) := by
  unfold turn
  simp only [htask, hphase, hcancel, hwake, Bool.false_eq_true, if_false, if_true]

/-! ### What was written since the last call -/

/-- **What a run leaves unsent of a pane:** what waited before it and was written in it, since the last
move that made a call for the pane. -/
def unsent (p : PaneId) (b : Batcher) (d : ByteArray) : List Move → ByteArray
  | [] => d
  | m :: ms =>
    unsent p (b.move m)
      (if (handed p (b.move m)).length = (handed p b).length then d ++ bytesOf p m.output
        else ByteArray.empty) ms

theorem Delivers.handed_eq {b b' : Batcher} {p : PaneId} {ds : List ByteArray}
    (h : Delivers b b' p ds) : handed p b' = handed p b ++ ds := by
  obtain ⟨calls, hcalls, hds, -⟩ := h
  have hdata : ∀ b : Batcher, handed p b = (callsOf p b).map fun c => c.chunk.data := by
    intro b
    unfold handed dataOf callsOf
    rw [List.filter_map, List.map_map]
    rfl
  rw [hdata, hdata, hcalls, List.map_append, hds]

/-- A sink that never fails takes all the writes that are asked for. -/
theorem made_eq {b : Batcher} (h : b.sink.Reliable) (ht : Tidy b)
    (items : List (PaneId × ByteArray)) : b.made items = items.map fun (p, d) => ⟨p, d⟩ := by
  induction items generalizing b with
  | nil => rfl
  | cons e items ih =>
    obtain ⟨p, d⟩ := e
    obtain ⟨hnone, hreliable⟩ := write_reliable h ht.pool p d
    unfold made
    rw [hnone, ih hreliable (Wrote.write ht p d).tidy]
    rfl

/-- **One move** adds what it writes to what waits, unless it makes a call for the pane, which leaves
nothing waiting. -/
theorem buffered_move {b : Batcher} (h : b.sink.Reliable) (ht : Tidy b) (m : Move) (p : PaneId) :
    buffered (b.move m).panes p =
      if (handed p (b.move m)).length = (handed p b).length
      then buffered b.panes p ++ bytesOf p m.output else ByteArray.empty := by
  -- work sends all that waits, or nothing
  have hworked : Worked b (b.move m) → m.output = [] → buffered (b.move m).panes p =
      if (handed p (b.move m)).length = (handed p b).length
      then buffered b.panes p ++ bytesOf p m.output else ByteArray.empty := by
    intro hw hout
    obtain ⟨-, -, hserved⟩ := hw.served h p
    rw [hout, bytesOf_nil, ByteArray.append_empty]
    cases hserved with
    | kept calls rest =>
      rw [calls.handed_eq, List.append_nil, if_pos rfl]
      exact rest
    | taken calls waits rest =>
      rw [calls.handed_eq, if_neg (by simp)]
      exact rest
  -- writes all wait, or all pass straight through an empty buffer
  have hwrote : Wrote b (b.move m) m.output → buffered (b.move m).panes p =
      if (handed p (b.move m)).length = (handed p b).length
      then buffered b.panes p ++ bytesOf p m.output else ByteArray.empty := by
    intro hw
    have hcalls := hw.calls p
    have hwaits := hw.waits p
    by_cases hs : b.stopped = true
    · rw [if_pos hs] at hcalls hwaits
      rw [hwaits, ht.passing hs p, ByteArray.append_empty, hcalls, List.length_append]
      split
      · next hlen =>
        have hnone : (dataOf p m.output).flatMap piece = [] := by
          rw [← List.length_eq_zero_iff]
          omega
        rw [← joined_dataOf, ← joined_pieces, hnone]
        rfl
      · rfl
    · rw [if_neg hs] at hcalls hwaits
      rw [hcalls, List.append_nil, if_pos rfl]
      exact hwaits
  cases m with
  | turn => exact hworked (worked_turn b) rfl
  | tick k => exact hworked (.single (.aside (Nat.le_add_right _ _))) rfl
  | halt => exact hworked (.single (.aside (Nat.le_refl _))) rfl
  | op o =>
    cases o with
    | start => exact hworked (worked_start b) rfl
    | write q d => exact hwrote (.write ht q d)
    | writes items =>
      have hw := Wrote.writeAll ht items
      rw [made_eq h ht] at hw
      exact hwrote hw
    | sleep ms => exact hworked (worked_advance b ms) rfl
    | remove q => exact hworked (.single (.drain (.remove q))) rfl
    | retain live => exact hworked (.single (.drain (.retain fun q => live.contains q))) rfl
    | cancel => exact hworked (.single (.aside (Nat.le_refl _))) rfl
    | stop => exact hworked (worked_stop b) rfl

/-- **What waits for a pane** in front of a reliable sink is what is unsent. -/
theorem buffered_run {b : Batcher} (h : b.sink.Reliable) (ht : Tidy b) (ms : List Move)
    (p : PaneId) : buffered (b.run ms).panes p = unsent p b (buffered b.panes p) ms := by
  induction ms generalizing b with
  | nil => rfl
  | cons m ms ih =>
    obtain ⟨htidy, hreliable⟩ := run_reliable ht h [m]
    have hrest : buffered ((b.move m).run ms).panes p =
        unsent p (b.move m) (buffered (b.move m).panes p) ms := ih hreliable htidy
    rw [run_cons, hrest, buffered_move h ht m p]
    rfl

/-! ### A write that fills a buffer -/

/-- Once nothing waits for a pane, what the loop does delivers nothing more for it. -/
theorem Delivers.worked {a b c : Batcher} {p : PaneId} {ds : List ByteArray}
    (h : Delivers a b p ds) (hle : a.now ≤ b.now) (hr : b.sink.Reliable)
    (hnone : buffered b.panes p = ByteArray.empty) (hw : Worked b c) : Delivers a c p ds := by
  obtain ⟨-, hle', hserved⟩ := hw.served hr p
  have hall := h.trans (hserved.delivers_nil hnone).1 hle hle'
  rwa [List.append_nil] at hall

/-- **A loop that is woken delivers a full buffer**, all of it and once, before it rests again. -/
theorem delivers_of_wake {b : Batcher} {loop : Supervisor.State} {period deadline since : Nat}
    (htask : b.task = .active loop period deadline) (hphase : loop.phase = .running since)
    (hcancel : b.cancelled = false) (hwake : b.wake = true) (h : b.sink.Reliable)
    (hmax : 1 ≤ b.policy.maxBytes) {p : PaneId} (hfull : b.IsFull p) :
    Delivers b b.settle p [buffered b.panes p] := by
  have hround : Work b (flushDue { b with wake := false }).2 := .heed
  have hempty : ¬ IsFull (flushDue { b with wake := false }).2 p :=
    not_isFull_round (b := { b with wake := false }) hmax p
  have hrest : Worked (flushDue { b with wake := false }).2 b.settle := by
    unfold settle
    rw [turns_of_some (turn_of_wake htask hphase hcancel hwake)]
    exact (Worked.single (work_look _ _ _)).trans (worked_turns 15 _)
  cases hround.served h p with
  | kept calls rest =>
    refine absurd ?_ hempty
    unfold IsFull at hfull ⊢
    rwa [hround.policy_eq, rest]
  | taken calls waits rest =>
    exact calls.worked hround.now_le (hround.reliable h) rest hrest

/-- **A write that fills a buffer wakes the loop**, which delivers what waited and what was written. -/
theorem delivers_of_crosses {b : Batcher} (h : b.sink.Reliable) (ht : Tidy b)
    (hmax : 1 ≤ b.policy.maxBytes) (hwaits : b.isWaiting = true) {p : PaneId} {d : ByteArray}
    (hcrosses : b.crosses p d = true) :
    Delivers b (b.write p d).2.settle p [buffered b.panes p ++ d] := by
  obtain ⟨loop, period, deadline, since, htask, hphase, hcancel, -⟩ := isWaiting_cases hwaits
  obtain ⟨hshort, hfull⟩ := Bool.and_eq_true_iff.mp hcrosses
  have hw := written_of_write ht.pool p d
  generalize b.write p d = r at hw
  cases hw with
  | nothing blank =>
    have hshort := of_decide_eq_true hshort
    have hfull := of_decide_eq_true hfull
    rw [blank, ByteArray.size_empty] at hfull
    omega
  | passed solid stopped =>
    -- after a stop nothing waits, and the output has been delivered by now
    have hnone := ht.passing stopped p
    have hone : Delivers b { b with sink := b.sink.took b.now [⟨p, d⟩] } p [d] := by
      have htook : Delivers b { b with sink := b.sink.took b.now [⟨p, d⟩] } p
          (dataOf p [⟨p, d⟩]) := .of_took rfl (Nat.le_refl _)
      simpa [dataOf] using htook
    rw [Sink.deliver_eq h, hnone, ByteArray.empty_append]
    exact hone.worked (Nat.le_refl _) (h.took _ _) hnone (worked_turns 16 _)
  | @added pool solid stopped spare =>
    rw [hcrosses, Bool.true_or, Bool.true_or]
    generalize hb' : ({ b with
      panes := b.panes.insert p ((b.bufferOf p).add d b.now), pool, wake := true } : Batcher) = b'
    have hdata : buffered b'.panes p = buffered b.panes p ++ d := by
      rw [← hb', buffered, PaneMap.find?_insert, if_pos rfl, ← bufferOf_data]
      rfl
    have hfull' : b'.IsFull p := by
      unfold IsFull
      rw [hdata, ByteArray.size_append, ← hb']
      exact of_decide_eq_true hfull
    have hall : Delivers b' b'.settle p [buffered b'.panes p] :=
      delivers_of_wake (by rw [← hb']; exact htask) hphase (by rw [← hb']; exact hcancel)
        (by rw [← hb']) (by rw [← hb']; exact h) (by rw [← hb']; exact hmax) hfull'
    rw [hdata] at hall
    have hfirst : Delivers b b' p [] := .of_sink (by rw [← hb'])
    have hnow : b'.now = b.now := by rw [← hb']
    exact hfirst.trans hall (Nat.le_of_eq hnow.symm) (Nat.le_of_eq (turns_now 16 b').symm)

/-- **No full buffer goes unheard.** Whichever calls of the sink fail, whatever operations follow each
other, and wherever the loop stands: as long as a buffer holds `maxBytes` a wake-up is stored. So a
loop that runs and waits has left no full buffer; and if the sink never fails, a write that then
fills one is followed, at the same moment, by the delivery of all that was written to its pane since
the last delivery, in one chunk. -/
theorem full_buffer_heard (policy : BatchPolicy) (restart : RestartPolicy)
    (fate : Nat → Option String) (ms : List Move) (hmax : 1 ≤ policy.maxBytes) :
    let start := fresh policy restart fate
    let b := start.run ms
    (∀ p, policy.maxBytes ≤ (buffered b.panes p).size → b.wake = true) ∧
    (b.isWaiting = true →
      (∀ p, (buffered b.panes p).size < policy.maxBytes) ∧
      ((∀ k, fate k = none) → ∀ p d,
        let waiting := unsent p start ByteArray.empty ms
        let b' := (b.perform (.write p d)).2
        policy.maxBytes ≤ waiting.size + d.size →
          b'.now = b.now ∧ Delivers b b' p [waiting ++ d])) := by
  intro start b
  have htidy : Tidy start := tidy_fresh policy restart fate
  have hpolicy : b.policy = policy := run_policy start ms
  have hheard : Heard b := run_heard htidy hmax (heard_fresh hmax restart fate) ms
  have hwake : ∀ p, policy.maxBytes ≤ (buffered b.panes p).size → b.wake = true := fun p hp =>
    hheard p (by unfold IsFull; rwa [hpolicy])
  refine ⟨hwake, fun hwaits => ?_⟩
  have hshort : ∀ p, (buffered b.panes p).size < policy.maxBytes := by
    intro p
    obtain ⟨_, _, _, _, -, -, -, hnone⟩ := isWaiting_cases hwaits
    exact Nat.lt_of_not_le fun hle => absurd (hnone.symm.trans (hwake p hle)) (by decide)
  refine ⟨hshort, ?_⟩
  intro hfate p d waiting b' hfull
  have hreliable : start.sink.Reliable := funext hfate
  have hwaiting : buffered b.panes p = waiting := buffered_run hreliable htidy ms p
  obtain ⟨ht, hr⟩ := run_reliable htidy hreliable ms
  have hcrosses : b.crosses p d = true := by
    unfold crosses
    rw [hpolicy, decide_eq_true (hshort p), hwaiting, decide_eq_true hfull]
    rfl
  refine ⟨(turns_now 16 _).trans (write_now b p d), ?_⟩
  rw [← hwaiting]
  exact delivers_of_crosses hr ht (by rwa [hpolicy]) hwaits hcrosses

/-- A pane whose buffer was filled and delivered once, and is filled again by two writes. -/
theorem full_buffer_heard_again :
    let policy : BatchPolicy := { (default : BatchPolicy) with maxBytes := 4 }
    let ms : List Move := [.op .start, .turn, .op (.write "%0" "full".toUTF8), .turn, .tick 3,
      .op (.write "%1" "x".toUTF8), .op (.write "%0" "ab".toUTF8)]
    let b := (fresh policy default).run ms
    let b' := (b.perform (.write "%0" "cd".toUTF8)).2
    b.isWaiting = true ∧ Delivers b b' "%0" ["ab".toUTF8 ++ "cd".toUTF8] := by
  intro policy ms b b'
  have hwaits : b.isWaiting = true := by decide +kernel
  have hwaiting : unsent "%0" (fresh policy default) ByteArray.empty ms = "ab".toUTF8 := by
    decide +kernel
  have hfull : policy.maxBytes ≤ "ab".toUTF8.size + "cd".toUTF8.size := by decide +kernel
  have hlaw := full_buffer_heard policy default (fun _ => none) ms (by decide)
  have hnext := (hlaw.2 hwaits).2 (fun _ => rfl) "%0" "cd".toUTF8
  rw [hwaiting] at hnext
  exact ⟨hwaits, (hnext hfull).2⟩

end PaneRelay.Batcher
