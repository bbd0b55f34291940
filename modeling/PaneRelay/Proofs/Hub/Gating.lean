import PaneRelay.Proofs.Frame
import PaneRelay.Proofs.Hub.Run

/-! # Which output reaches a consumer

What a consumer has asked for can be read off its messages alone: the last of them that names a pane
decides. The hub keeps one table for whoever is live, and empties it when the consumer changes, so
the table says for every live consumer what its own messages say (`Booked.wanted`).

* `lastWord`, `since`: what the messages of a connection say, from the moment it was let in.
* `Qualifies`: whether output is for a connection, by the history alone.
* `accepted`: the frames of the calls that qualify and find room.
* `Booked.act`: what the history says and what the hub keeps agree, act by act.
* `broadcasts_gated`: the frames of every connection, after any run. -/

namespace PaneRelay.Hub

/-! ### The history -/

/-- What a request says about a pane, if it names it: that it is asked for, or given up. -/
def wordOn (p : PaneId) : Control.Request → Option Bool
  | .subscribe ids => if ids.contains p then some true else none
  | .unsubscribe ids => if ids.contains p then some false else none
  | .unknown _ => none

/-- **What an act of a connection says about a pane.** Only a well-formed message says anything. -/
def Act.word (id : Nat) (p : PaneId) : Act → Option Bool
  | .receive sender text =>
    if sender = id then
      match Control.parse text with
      | .ok m => wordOn p m.request
      | .error _ => none
    else none
  | _ => none

/-- The last word of a connection on a pane. -/
def lastWord (id : Nat) (p : PaneId) (acts : List Act) : Option Bool :=
  (acts.filterMap (Act.word id p)).getLast?

/-- How many consumers were let in. -/
def attaches (acts : List Act) : Nat := acts.countP Act.isAttach

/-- The acts after the one that let in the consumer with a number. -/
def since : Nat → List Act → List Act
  | _, [] => []
  | id, .attach _ :: acts => if id = 1 then acts else since (id - 1) acts
  | id, _ :: acts => since id acts

theorem lastWord_append (id : Nat) (p : PaneId) (acts : List Act) (a : Act) :
    lastWord id p (acts ++ [a]) = (a.word id p).or (lastWord id p acts) := by
  unfold lastWord
  rw [List.filterMap_append]
  cases h : a.word id p with
  | none => simp [h]
  | some b => simp [h]

theorem attaches_append (acts : List Act) (a : Act) :
    attaches (acts ++ [a]) = attaches acts + if a.isAttach then 1 else 0 := by
  unfold attaches
  rw [List.countP_append, List.countP_singleton]

/-- The history of a connection begins when it is let in. -/
theorem since_append (id : Nat) (acts : List Act) (a : Act) :
    since id (acts ++ [a]) =
      if 1 ≤ id ∧ id ≤ attaches acts then since id acts ++ [a] else [] := by
  induction acts generalizing id with
  | nil =>
    have hn : ¬ (1 ≤ id ∧ id ≤ attaches []) := by
      unfold attaches
      simp only [List.countP_nil]
      omega
    rw [if_neg hn, List.nil_append]
    cases a with
    | attach now => simp [since]
    | _ => rfl
  | cons b acts ih =>
    cases b with
    | attach now =>
      have hc : attaches (.attach now :: acts) = attaches acts + 1 := by
        unfold attaches
        rw [List.countP_cons]
        rfl
      rw [List.cons_append, since, since, hc]
      by_cases h1 : id = 1
      · rw [if_pos h1, if_pos h1, if_pos (by omega)]
      · rw [if_neg h1, if_neg h1, ih]
        by_cases h2 : 1 ≤ id - 1 ∧ id - 1 ≤ attaches acts
        · rw [if_pos h2, if_pos (by omega)]
        · rw [if_neg h2, if_neg (by omega)]
    | _ => exact ih id

/-- **Output qualifies for a connection**, by the history: it is not empty, and comes while the
connection is live and its last word on the pane is that it is asked for. -/
def Qualifies (policy : HubPolicy) (acts : List Act) (id : Nat) (p : PaneId) (d : ByteArray) :
    Prop :=
  d.isEmpty = false ∧ ((fresh policy).run acts).live = some id ∧
    lastWord id p (since id acts) = some true

instance (policy : HubPolicy) (acts : List Act) (id : Nat) (p : PaneId) (d : ByteArray) :
    Decidable (Qualifies policy acts id p d) :=
  inferInstanceAs (Decidable (_ ∧ _ ∧ _))

/-- The frame that an act after a history is to place in the queue of a connection. -/
def placed (policy : HubPolicy) (acts : List Act) (id : Nat) : Act → Option ByteArray
  | .broadcast p d =>
    if Qualifies policy acts id p d ∧ ((fresh policy).run acts).hasRoom id = true
      then some (Frame.encode p d) else none
  | _ => none

/-- **The frames of the calls that qualify and find room**, in call order, among the acts that come
after a history. -/
def accepted (policy : HubPolicy) (id : Nat) (past : List Act) : List Act → List ByteArray
  | [] => []
  | a :: acts => (placed policy past id a).toList ++ accepted policy id (past ++ [a]) acts

/-! ### The table agrees with the history -/

/-- **The hub is booked** for what has happened: its numbers are given out in order, and the panes
asked for are those that the live consumer has last asked for. -/
structure Booked (acts : List Act) (h : Hub) : Prop where
  issued : h.issued = attaches acts
  numbers : h.numbers = List.range' 1 (attaches acts)
  live : ∀ id, h.live = some id → 1 ≤ id ∧ id ≤ attaches acts
  wanted : ∀ id p, h.live = some id →
    (h.isWanted p = true ↔ lastWord id p (since id acts) = some true)

theorem booked_fresh (policy : HubPolicy) : Booked [] (fresh policy) where
  issued := rfl
  numbers := rfl
  live _ h := by cases h
  wanted _ _ h := by cases h

namespace Booked

variable {acts : List Act} {h : Hub} {a : Act}

theorem connection? (hb : Booked acts h) {id : Nat} (hl : h.live = some id) :
    (h.connection? id).isSome = true := by
  obtain ⟨h1, h2⟩ := hb.live id hl
  rw [connection?_isSome, hb.numbers, List.mem_range'_1]
  omega

/-- The history of the live consumer goes on with every act. -/
theorem since_append (hb : Booked acts h) {id : Nat} (hl : h.live = some id) (a : Act) :
    since id (acts ++ [a]) = since id acts ++ [a] := by
  rw [Hub.since_append, if_pos (hb.live id hl)]

/-- An act that lets nobody in, and what it says about the panes. -/
theorem step (hb : Booked acts h) {h' : Hub} (ha : a.isAttach = false)
    (hissued : h'.issued = h.issued) (hnumbers : h'.numbers = h.numbers)
    (hlive : ∀ id, h'.live = some id → h.live = some id)
    (hwanted : ∀ id p, h'.live = some id → (h'.isWanted p = true ↔
      (a.word id p).or (lastWord id p (since id acts)) = some true)) :
    Booked (acts ++ [a]) h' := by
  have hn : attaches (acts ++ [a]) = attaches acts := by
    rw [attaches_append, ha]
    rfl
  refine ⟨?_, ?_, fun id hl => ?_, fun id p hl => ?_⟩
  · rw [hissued, hb.issued, hn]
  · rw [hnumbers, hb.numbers, hn]
  · rw [hn]
    exact hb.live id (hlive id hl)
  · rw [hb.since_append (hlive id hl), lastWord_append]
    exact hwanted id p hl

/-- An act that leaves the books alone and says nothing. -/
theorem calm (hb : Booked acts h) {h' : Hub} (hc : Calm h h') (ha : a.isAttach = false)
    (hword : ∀ id p, a.word id p = none) : Booked (acts ++ [a]) h' := by
  refine hb.step ha hc.same.issued hc.same.numbers (fun id hl => ?_) (fun id p hl => ?_)
  · rcases hc.live with ⟨he, -⟩ | ⟨hn, -⟩
    · rw [← he, hl]
    · rw [hn] at hl
      cases hl
  · rcases hc.live with ⟨he, hw⟩ | ⟨hn, -⟩
    · rw [hword, Option.none_or, ← hb.wanted id p (he ▸ hl)]
      unfold isWanted
      rw [hw]
    · rw [hn] at hl
      cases hl

/-- **A consumer is let in**, and has asked for nothing yet. -/
theorem attach (hb : Booked acts h) (now : Nat) :
    Booked (acts ++ [.attach now]) (h.act (.attach now)) := by
  obtain ⟨hlive, hwanted, hissued, -⟩ :=
    attach_fields h.issue.2 (.fresh h.policy h.issue.1 now)
  have hn : attaches (acts ++ [.attach now]) = attaches acts + 1 := attaches_append _ _
  have hid : h.issue.1 = attaches acts + 1 := congrArg (· + 1) hb.issued
  refine ⟨?_, ?_, fun id hl => ?_, fun id p hl => ?_⟩
  · show (h.issue.2.attach _).issued = _
    rw [hissued, hn, ← hid]
    rfl
  · show (h.issue.2.attach _).numbers = _
    rw [attach_numbers, hn, List.range'_concat]
    show h.numbers ++ [h.issue.1] = _
    rw [hb.numbers, hid]
    simp [Nat.add_comm]
  · have he : h.issue.1 = id := by
      rw [show (h.act (.attach now)).live = some h.issue.1 from hlive] at hl
      exact Option.some.inj hl
    omega
  · have he : h.issue.1 = id := by
      rw [show (h.act (.attach now)).live = some h.issue.1 from hlive] at hl
      exact Option.some.inj hl
    have hw : (h.act (.attach now)).wanted = [] := hwanted
    rw [Hub.since_append, if_neg (by omega)]
    simp [isWanted, hw, lastWord]

/-- **A text from anyone** changes the table for the live consumer as it says, or not at all. -/
theorem receive (hb : Booked acts h) (sender : Nat) (text : String) :
    Booked (acts ++ [.receive sender text]) (h.receive sender text) := by
  obtain ⟨hs, hl⟩ := receive_same h sender text
  refine hb.step rfl hs.issued hs.numbers (fun id hi => hl ▸ hi) (fun id p hi => ?_)
  have hi : h.live = some id := hl ▸ hi
  have hw := hb.wanted id p hi
  cases hp : Control.parse text with
  | error e =>
    have hword : (Act.receive sender text).word id p = none := by simp [Act.word, hp]
    have hwant : (h.receive sender text).wanted = h.wanted := by
      unfold Hub.receive
      rw [hp]
      rfl
    rw [hword, Option.none_or, ← hw]
    unfold isWanted
    rw [hwant]
  | ok m =>
    by_cases hid : sender = id
    · subst hid
      have hword : (Act.receive sender text).word sender p = wordOn p m.request := by
        simp [Act.word, hp]
      unfold isWanted at hw ⊢
      rw [hword, List.contains_iff_mem]
      rw [List.contains_iff_mem] at hw
      unfold Hub.receive
      rw [hp]
      obtain ⟨request, rejected⟩ := m
      cases request with
      | subscribe ids =>
        simp only [mem_subscribe hi, hw, wordOn]
        by_cases hm : p ∈ ids <;> simp [hm]
      | unsubscribe ids =>
        simp only [mem_unsubscribe hi, hw, wordOn]
        by_cases hm : p ∈ ids <;> simp [hm]
      | unknown a => simpa [wordOn] using hw
    · -- a stale connection has no say
      have hne : h.live ≠ some sender := fun he => hid (Option.some.inj (he.symm.trans hi))
      have hstale : h.receive sender text = h := by
        unfold Hub.receive subscribe unsubscribe
        rw [hp]
        simp only [if_neg hne]
        split <;> rfl
      have hword : (Act.receive sender text).word id p = none := by simp [Act.word, hid]
      rw [hword, Option.none_or, hstale]
      exact hw

/-- What the history says of output is what the hub sees. -/
theorem qualifies_iff {policy : HubPolicy} (hb : Booked acts ((fresh policy).run acts)) {id : Nat}
    {p : PaneId} {d : ByteArray} :
    Qualifies policy acts id p d ↔ ((fresh policy).run acts).Concerns id p d := by
  unfold Qualifies Concerns
  constructor
  · rintro ⟨hd, hl, hw⟩
    exact ⟨hd, hl, (hb.wanted id p hl).mpr hw⟩
  · rintro ⟨hd, hl, hw⟩
    exact ⟨hd, hl, (hb.wanted id p hl).mp hw⟩

/-- **Output** is queued, or costs the consumer its connection, or passes by. -/
theorem broadcast (hb : Booked acts h) (p : PaneId) (d : ByteArray) :
    Booked (acts ++ [.broadcast p d]) (h.broadcast p d) := by
  by_cases hc : ∃ id, h.Concerns id p d
  · obtain ⟨id, hc⟩ := hc
    cases hr : h.hasRoom id with
    | true =>
      obtain ⟨-, hnum, connections, he⟩ := broadcast_of_room hc hr
      rw [he] at hnum ⊢
      exact hb.step rfl rfl hnum (fun i hl => hl) (fun i q hl => hb.wanted i q hl)
    | false =>
      exact hb.calm (broadcast_of_full_calm hc (hb.connection? hc.2.1) hr) rfl fun _ _ => rfl
  · rw [broadcast_of_not fun id hi => hc ⟨id, hi⟩]
    exact hb.calm ((Same.refl h).calm rfl rfl) rfl fun _ _ => rfl

/-- **Any act** leaves the hub booked. -/
theorem act (hb : Booked acts h) (a : Act) : Booked (acts ++ [a]) (h.act a) := by
  cases a with
  | attach now => exact hb.attach now
  | drop id reason => exact hb.calm (dropConnection_calm h id reason) rfl fun _ _ => rfl
  | receive id text => exact hb.receive id text
  | broadcast p d => exact hb.broadcast p d
  | take id =>
    have hs : Same h (h.act (.take id)) := same_modify Connection.entry_takeNext h id
    exact hb.calm (hs.calm rfl rfl) rfl fun _ _ => rfl
  | adjust id f =>
    have hs : Same h (h.act (.adjust id f)) :=
      same_modify (f := Connection.adjust f) (fun _ => rfl) h id
    exact hb.calm (hs.calm rfl rfl) rfl fun _ _ => rfl
  | serve now => exact hb.calm (serve_calm h now) rfl fun _ _ => rfl
  | start bound => exact hb.calm ⟨⟨rfl, rfl, rfl⟩, .inl ⟨rfl, rfl⟩⟩ rfl fun _ _ => rfl
  | beginStop => exact hb.calm (beginStop_calm h) rfl fun _ _ => rfl
  | finishStop => exact hb.calm ⟨⟨rfl, rfl, rfl⟩, .inl ⟨rfl, rfl⟩⟩ rfl fun _ _ => rfl
  | cancel => exact hb.calm (cancel_calm h) rfl fun _ _ => rfl

theorem run (hb : Booked acts h) (more : List Act) : Booked (acts ++ more) (h.run more) := by
  induction more generalizing acts h with
  | nil => simpa using hb
  | cons a more ih => simpa [List.append_assoc] using ih (hb.act a)

end Booked

theorem booked_run (policy : HubPolicy) (acts : List Act) :
    Booked acts ((fresh policy).run acts) := by
  simpa using (booked_fresh policy).run acts

/-! ### The frames of a connection -/

theorem attach_framesOf (h : Hub) (now id : Nat) :
    (h.act (.attach now)).framesOf id = h.framesOf id := by
  have he : (h.act (.attach now)).entries = h.entries ++ [(h.issue.1, [])] := attach_entries _ _
  rw [framesOf_eq, framesOf_eq, he, List.lookup_append]
  cases h.entries.lookup id with
  | some l => rfl
  | none =>
    rw [Option.none_or, List.lookup_cons]
    split <;> rfl

/-- **Output** is placed in the queue of the connection it concerns, if there is room. -/
theorem Booked.framesOf_broadcast {acts : List Act} {h : Hub} (hb : Booked acts h) (p : PaneId)
    (d : ByteArray) (id : Nat) :
    (h.broadcast p d).framesOf id = h.framesOf id ++
      if h.Concerns id p d ∧ h.hasRoom id = true then [Frame.encode p d] else [] := by
  by_cases hc : ∃ i, h.Concerns i p d
  · obtain ⟨i, hc⟩ := hc
    have hone : h.Concerns id p d → id = i := fun hi => Option.some.inj (hi.2.1.symm.trans hc.2.1)
    cases hr : h.hasRoom i with
    | true =>
      obtain ⟨hf, -⟩ := broadcast_of_room hc hr
      rw [hf id]
      by_cases hi : id = i
      · subst hi
        rw [if_pos rfl, if_pos ⟨hc, hr⟩]
      · rw [if_neg hi, if_neg fun h' => hi (hone h'.1), List.append_nil]
    | false =>
      have hs := (broadcast_of_full_calm hc (hb.connection? hc.2.1) hr).same
      rw [if_neg, List.append_nil, hs.framesOf]
      rintro ⟨h1, h2⟩
      rw [hone h1, hr] at h2
      cases h2
  · rw [broadcast_of_not fun i hi => hc ⟨i, hi⟩, if_neg fun h' => hc ⟨id, h'.1⟩, List.append_nil]

/-- **One act** places what the history says, and no other frame. -/
theorem framesOf_act (policy : HubPolicy) (acts : List Act) (a : Act) (id : Nat) :
    (((fresh policy).run acts).act a).framesOf id =
      ((fresh policy).run acts).framesOf id ++ (placed policy acts id a).toList := by
  have hb := booked_run policy acts
  have hq : ∀ p d, Qualifies policy acts id p d ↔ ((fresh policy).run acts).Concerns id p d :=
    fun p d => hb.qualifies_iff
  unfold placed
  generalize (fresh policy).run acts = h at hb hq ⊢
  have hsame : ∀ h', Same h h' → h'.framesOf id = h.framesOf id ++ [] := fun h' hs => by
    rw [List.append_nil]
    exact hs.framesOf id
  cases a with
  | attach now => simpa using attach_framesOf h now id
  | drop i reason => exact hsame _ (dropConnection_calm h i reason).same
  | receive i text => exact hsame _ (receive_same h i text).1
  | take i => exact hsame _ (same_modify Connection.entry_takeNext h i)
  | adjust i f => exact hsame _ (same_modify (f := Connection.adjust f) (fun _ => rfl) h i)
  | serve now => exact hsame _ (serve_calm h now).same
  | start bound => exact hsame _ ⟨rfl, rfl, rfl⟩
  | beginStop => exact hsame _ (beginStop_calm h).same
  | finishStop => exact hsame _ ⟨rfl, rfl, rfl⟩
  | cancel => exact hsame _ (cancel_calm h).same
  | broadcast p d =>
    simp only
    refine (hb.framesOf_broadcast p d id).trans ?_
    by_cases hc : h.Concerns id p d ∧ h.hasRoom id = true
    · rw [if_pos hc, if_pos ⟨(hq p d).mpr hc.1, hc.2⟩]
      rfl
    · rw [if_neg hc, if_neg fun h' => hc ⟨(hq p d).mp h'.1, h'.2⟩]
      rfl

theorem framesOf_run (policy : HubPolicy) (past acts : List Act) (id : Nat) :
    ((fresh policy).run (past ++ acts)).framesOf id =
      ((fresh policy).run past).framesOf id ++ accepted policy id past acts := by
  induction acts generalizing past with
  | nil => simp [accepted]
  | cons a acts ih =>
    rw [List.append_cons, ih (past ++ [a]), run_append, run_cons, run_nil, framesOf_act, accepted,
      List.append_assoc]

/-- **Broadcasts are gated.** After any run of a hub, the frames that were placed in a connection's
queue are those of the calls that qualified for it by the history and found room, in call order. A
call that qualifies and finds the queue full touches no queue, counts one frame as dropped, and
leaves nobody live and nothing asked for; a call that qualifies for nobody changes nothing. And a
frame of a pane whose ID the length byte can announce decodes to the pane and the data. -/
theorem broadcasts_gated (policy : HubPolicy) (acts : List Act) :
    let h := (fresh policy).run acts
    (∀ id, h.framesOf id = accepted policy id [] acts) ∧
    (∀ id p d, Qualifies policy acts id p d → h.hasRoom id = false →
      let h' := h.broadcast p d
      (∀ i, (h'.connection? i).map Connection.outbox = (h.connection? i).map Connection.outbox) ∧
        h'.metrics = { h.metrics with framesDropped := h.metrics.framesDropped + 1 } ∧
        h'.live = none ∧ h'.wanted = []) ∧
    (∀ p d, (∀ id, ¬ Qualifies policy acts id p d) → h.broadcast p d = h) ∧
    (∀ p d, p.utf8ByteSize ≤ 255 → Frame.decode (Frame.encode p d) = .ok ⟨p, d⟩) := by
  have hb := booked_run policy acts
  refine ⟨fun id => ?_, fun id p d hq hr => ?_, fun p d hq => ?_, fun p d hp => ?_⟩
  · have h := framesOf_run policy [] acts id
    rwa [List.nil_append, run_nil] at h
  · have hc := hb.qualifies_iff.mp hq
    intro h'
    have he : h' = _ := broadcast_of_full hc (hb.connection? hc.2.1) hr
    obtain ⟨-, hl, hw, hm⟩ := dropConnection_of_live
      (h := { (fresh policy).run acts with metrics := ((fresh policy).run acts).metrics.dropped })
      hc.2.1 fullReason
    rw [he]
    exact ⟨dropConnection_outbox _ _ _, hm, hl, hw⟩
  · exact broadcast_of_not fun id hc => hq id (hb.qualifies_iff.mpr hc)
  · exact Frame.decode_encode hp d

/-- Only the pane asked for, and only once it was asked for. -/
example : accepted (.ofSection {}) 1 []
    [.attach 0, .broadcast "%0" "early".toUTF8,
      .receive 1 "\x7b\"action\":\"subscribe\",\"paneIds\":[\"%0\"]\x7d",
      .broadcast "%0" "on time".toUTF8, .broadcast "%1" "elsewhere".toUTF8] =
    [Frame.encode "%0" "on time".toUTF8] := by
  decide +kernel

end PaneRelay.Hub
