import Mathlib.Data.List.Induction
import Mathlib.Data.List.Nodup
import PaneRelay.Proofs.Hub.Run

/-! # At most one consumer

A connection is torn down along several paths, and its loops go on for a while after that. So calls
come for connections that are gone, and only the live one may be listened to. The token of the live
one fires whichever way it goes, and the table is emptied with it; so at any time every other
connection has been told to end, and nobody's panes are in the table while nobody is live (`Sole`).

* `Call`, `called`: what those who serve the consumers call on a hub, one call after another.
* `Call.Lawful`: a connection's number was given out, and is used once.
* `Effect`: all that a call can come to, with what is told of it.
* `Sole.call`, `Sole.called`: the invariant, for a call and for any number of them.
* `single_consumer`: what that says of a hub, and that calls for other connections do nothing. -/

namespace PaneRelay.Hub

/-! ### Calls -/

/-- **What is called on a hub.** -/
inductive Call where
  /-- A number is given out. -/
  | issue
  /-- A connection is installed as the live one. -/
  | attach (c : Connection)
  /-- A connection is to be torn down. -/
  | drop (id : Nat) (reason : String)
  /-- A connection asks for panes. -/
  | subscribe (id : Nat) (panes : List PaneId)
  /-- A connection gives panes up. -/
  | unsubscribe (id : Nat) (panes : List PaneId)
  /-- Output of a pane. -/
  | broadcast (p : PaneId) (data : ByteArray)
  /-- The loops of a connection do something to it. -/
  | own (id : Nat) (f : Connection → Connection)

/-- A connection after its loops did something to it: it keeps its number, and a token that has
fired. -/
def Connection.progress (f : Connection → Connection) (c : Connection) : Connection :=
  { f c with id := c.id, cancelled := c.cancelled || (f c).cancelled }

/-- The state after a call. -/
def call (h : Hub) : Call → Hub
  | .issue => h.issue.2
  | .attach c => h.attach c
  | .drop id reason => h.dropConnection id reason
  | .subscribe id panes => h.subscribe id panes
  | .unsubscribe id panes => h.unsubscribe id panes
  | .broadcast p data => h.broadcast p data
  | .own id f => h.modify id (Connection.progress f)

/-- **The state after any number of calls.** -/
def called (h : Hub) (calls : List Call) : Hub := calls.foldl call h

theorem called_concat (h : Hub) (calls : List Call) (a : Call) :
    h.called (calls ++ [a]) = (h.called calls).call a := List.foldl_append

/-- The number under which a connection is installed. -/
def Call.installs : Call → Option Nat
  | .attach c => some c.id
  | _ => none

/-- The numbers of all connections ever installed, oldest first. -/
def attached (calls : List Call) : List Nat := calls.filterMap Call.installs

theorem attached_concat (calls : List Call) (a : Call) :
    attached (calls ++ [a]) = attached calls ++ a.installs.toList := by
  unfold attached
  rw [List.filterMap_append]
  cases h : a.installs <;> simp [h]

/-- **Whether a connection's number is its own:** it was given out, and no connection was installed
under it. -/
def Call.Lawful (h : Hub) : Call → Prop
  | .attach c => 1 ≤ c.id ∧ c.id ≤ h.issued ∧ c.id ∉ h.numbers
  | _ => True

instance (h : Hub) : DecidablePred (Call.Lawful h)
  | .attach c => inferInstanceAs (Decidable (1 ≤ c.id ∧ c.id ≤ h.issued ∧ c.id ∉ h.numbers))
  | .issue | .drop _ _ | .subscribe _ _ | .unsubscribe _ _ | .broadcast _ _ | .own _ _ =>
    isTrue trivial

/-- **What holds of every call**, in the state in which it is made. -/
def Along (P : Hub → Call → Prop) (h : Hub) : List Call → Prop
  | [] => True
  | a :: calls => P h a ∧ Along P (h.call a) calls

instance decidableAlong (P : Hub → Call → Prop) [∀ h, DecidablePred (P h)] :
    ∀ h calls, Decidable (Along P h calls)
  | _, [] => isTrue trivial
  | h, a :: calls =>
    have := decidableAlong P (h.call a) calls
    inferInstanceAs (Decidable (P h a ∧ Along P (h.call a) calls))

theorem along_concat {P : Hub → Call → Prop} {h : Hub} {calls : List Call} {a : Call} :
    Along P h (calls ++ [a]) ↔ Along P h calls ∧ P (h.called calls) a := by
  induction calls generalizing h with
  | nil => exact and_comm
  | cons b calls ih => exact (and_congr_right fun _ => ih).trans and_assoc.symm

/-- **What holds of a hub that was not used yet, and stays with every lawful call**, holds after any
number of them. -/
theorem called_induct {policy : HubPolicy} {P : List Call → Hub → Prop} (hnil : P [] (fresh policy))
    (hcall : ∀ calls h a, h = (fresh policy).called calls → P calls h → a.Lawful h →
      P (calls ++ [a]) (h.call a))
    {calls : List Call} (hl : Along Call.Lawful (fresh policy) calls) :
    P calls ((fresh policy).called calls) := by
  induction calls using List.reverseRecOn with
  | nil => exact hnil
  | append_singleton calls a ih =>
    obtain ⟨hl, ha⟩ := along_concat.mp hl
    rw [called_concat]
    exact hcall calls _ a rfl (ih hl) ha

/-! ### What a call comes to -/

/-- **Nothing that would be told of happens.** Tokens may fire. -/
structure Quiet (h h' : Hub) : Prop where
  live : h'.live = h.live
  wanted : h'.wanted = h.wanted
  journal : h'.journal = h.journal
  opened : h'.metrics.connections = h.metrics.connections
  replaced : h'.metrics.replaced = h.metrics.replaced
  issued : h.issued ≤ h'.issued
  numbers : h'.numbers = h.numbers
  tokens : ∀ c' ∈ h'.connections, ∃ c ∈ h.connections,
    c.id = c'.id ∧ (c.cancelled = true → c'.cancelled = true)

theorem Quiet.of_connections {h h' : Hub} (hl : h'.live = h.live) (hw : h'.wanted = h.wanted)
    (hj : h'.journal = h.journal) (ho : h'.metrics.connections = h.metrics.connections)
    (hr : h'.metrics.replaced = h.metrics.replaced) (hi : h.issued ≤ h'.issued)
    (hc : h'.connections = h.connections) : Quiet h h' := by
  refine ⟨hl, hw, hj, ho, hr, hi, by unfold Hub.numbers; rw [hc], fun c hmem => ?_⟩
  rw [hc] at hmem
  exact ⟨c, hmem, rfl, id⟩

theorem Quiet.refl (h : Hub) : Quiet h h :=
  .of_connections rfl rfl rfl rfl rfl (Nat.le_refl _) rfl

theorem quiet_modify {f : Connection → Connection} (hid : ∀ c, (f c).id = c.id)
    (hf : ∀ c, c.cancelled = true → (f c).cancelled = true) (h : Hub) (i : Nat) :
    Quiet h (h.modify i f) := by
  refine ⟨rfl, rfl, rfl, rfl, rfl, Nat.le_refl _, numbers_modify hid h i, fun c' hmem => ?_⟩
  obtain ⟨c, hc, rfl⟩ := List.mem_map.mp hmem
  refine ⟨c, hc, ?_⟩
  split
  · exact ⟨(hid c).symm, hf c⟩
  · exact ⟨rfl, id⟩

/-- **Output** is told of only if it cuts off the live consumer. -/
theorem broadcast_effect (h : Hub) (p : PaneId) (d : ByteArray) :
    Quiet h (h.broadcast p d) ∨ ∃ h' id, Quiet h h' ∧ h.live = some id ∧
      h.broadcast p d = h'.dropConnection id fullReason := by
  by_cases hc : ∃ id, h.Concerns id p d
  · obtain ⟨id, hc⟩ := hc
    rw [broadcast_eq hc]
    cases h.connection? id with
    | none => exact .inl (Quiet.refl h)
    | some c =>
      simp only
      cases c.outbox.put h.policy.sendQueueCapacity (.frame (Frame.encode p d) d.size) with
      | some o =>
        exact .inl (quiet_modify (f := fun c => { c with outbox := o }) (fun _ => rfl)
          (fun _ hc => hc) h id)
      | none =>
        have hq : Quiet h { h with metrics := h.metrics.dropped } :=
          .of_connections rfl rfl rfl rfl rfl (Nat.le_refl _) rfl
        exact .inr ⟨_, id, hq, hc.2.1, rfl⟩
  · rw [broadcast_of_not (not_exists.mp hc)]
    exact .inl (Quiet.refl h)

/-- What is told when the live consumer has to make room. -/
def farewell (h : Hub) : List Event := h.live.toList.map fun id => .disconnected id replacedReason

/-- **All that a call can come to**, with what is told of it. -/
inductive Effect (h : Hub) : Call → List Event → Hub → Prop where
  /-- Nothing that would be told of. -/
  | quiet {a : Call} {h' : Hub} : a.installs = none → Quiet h h' → Effect h a [] h'
  /-- A connection becomes the live one. -/
  | attach (c : Connection) :
    Effect h (.attach c) (h.farewell ++ [.connected c.id]) (h.attach c)
  /-- The live connection goes. -/
  | drop {a : Call} {h' : Hub} {id : Nat} (reason : String) : a.installs = none → Quiet h h' →
    h.live = some id → Effect h a [.disconnected id reason] (h'.dropConnection id reason)
  /-- The live connection asks for panes that were not asked for. -/
  | subscribe {id : Nat} {panes : List PaneId} : h.live = some id → (addAll h.wanted panes).2 ≠ [] →
    Effect h (.subscribe id panes) [.subscribed (addAll h.wanted panes).2]
      ({ h with wanted := (addAll h.wanted panes).1 }.note (.subscribed (addAll h.wanted panes).2))
  /-- The live connection gives up panes that were asked for. -/
  | unsubscribe {id : Nat} {panes : List PaneId} : h.live = some id →
    (removeAll h.wanted panes).2 ≠ [] →
    Effect h (.unsubscribe id panes) [.unsubscribed (removeAll h.wanted panes).2]
      ({ h with wanted := (removeAll h.wanted panes).1 }.note
        (.unsubscribed (removeAll h.wanted panes).2))

/-- **Every call comes to one of these.** -/
theorem effect_call (h : Hub) (a : Call) : ∃ es, Effect h a es (h.call a) := by
  cases a with
  | issue => exact ⟨_, .quiet rfl (.of_connections rfl rfl rfl rfl rfl (Nat.le_succ _) rfl)⟩
  | attach c => exact ⟨_, .attach c⟩
  | drop id reason =>
    by_cases hl : h.live = some id
    · exact ⟨_, .drop reason rfl (Quiet.refl h) hl⟩
    · refine ⟨_, .quiet rfl ?_⟩
      show Quiet h (h.dropConnection id reason)
      rw [dropConnection_of_ne hl]
      exact Quiet.refl h
  | subscribe id panes =>
    show ∃ es, Effect h _ es (h.subscribe id panes)
    by_cases hl : h.live = some id
    · rw [subscribe_eq hl]
      split
      · exact ⟨_, .quiet rfl (Quiet.refl h)⟩
      · next hn => exact ⟨_, .subscribe hl (by simpa using hn)⟩
    · rw [subscribe_of_ne hl]
      exact ⟨_, .quiet rfl (Quiet.refl h)⟩
  | unsubscribe id panes =>
    show ∃ es, Effect h _ es (h.unsubscribe id panes)
    by_cases hl : h.live = some id
    · rw [unsubscribe_eq hl]
      split
      · exact ⟨_, .quiet rfl (Quiet.refl h)⟩
      · next hn => exact ⟨_, .unsubscribe hl (by simpa using hn)⟩
    · rw [unsubscribe_of_ne hl]
      exact ⟨_, .quiet rfl (Quiet.refl h)⟩
  | broadcast p d =>
    show ∃ es, Effect h _ es (h.broadcast p d)
    rcases broadcast_effect h p d with hq | ⟨h', id, hq, hl, heq⟩
    · exact ⟨_, .quiet rfl hq⟩
    · rw [heq]
      exact ⟨_, .drop fullReason rfl hq hl⟩
  | own id f =>
    have hq : Quiet h (h.modify id (Connection.progress f)) :=
      quiet_modify (f := Connection.progress f) (fun _ => rfl)
        (fun c hc => by simp [Connection.progress, hc]) h id
    exact ⟨_, .quiet rfl hq⟩

/-! ### The invariant -/

/-- The connections, once the token of the live one has fired. -/
def evicted (h : Hub) : List Connection :=
  h.connections.map fun c => if h.live = some c.id then c.cancel else c

/-- The live connection is cancelled by its number. -/
theorem modify_cancel {h : Hub} {id : Nat} (hl : h.live = some id) :
    (h.modify id Connection.cancel).connections = h.evicted := by
  refine List.map_congr_left fun c _ => ?_
  rw [hl]
  by_cases hc : c.id = id
  · rw [if_pos hc, if_pos (by rw [hc])]
  · rw [if_neg hc, if_neg (fun he => hc (Option.some.inj he).symm)]

theorem attach_connections (h : Hub) (c : Connection) :
    (h.attach c).connections = h.evicted ++ [c] := by
  unfold attach
  cases hl : h.live with
  | none =>
    have he : h.evicted = h.connections := by
      unfold evicted
      simp [hl]
    rw [he]
    rfl
  | some id =>
    rw [← modify_cancel hl]
    rfl

theorem dropConnection_connections {h : Hub} {id : Nat} (hl : h.live = some id) (reason : String) :
    (h.dropConnection id reason).connections = h.evicted := by
  unfold dropConnection
  rw [if_pos hl, ← modify_cancel hl]
  rfl

/-- **At most one consumer.** All connections are known, each by a number of its own. The live one is
one of them, and the tokens of all others have fired. The panes asked for are those of the live
one. -/
structure Sole (calls : List Call) (h : Hub) : Prop where
  numbers : h.numbers = attached calls
  nodup : h.numbers.Nodup
  issued : ∀ id ∈ h.numbers, id ≤ h.issued
  live : ∀ id, h.live = some id → id ∈ h.numbers
  fired : ∀ c ∈ h.connections, h.live ≠ some c.id → c.cancelled = true
  table : h.live = none → h.wanted = []

theorem sole_fresh (policy : HubPolicy) : Sole [] (fresh policy) where
  numbers := rfl
  nodup := List.nodup_nil
  issued := by simp [Hub.numbers, fresh]
  live := by simp [fresh]
  fired := by simp [fresh]
  table := fun _ => rfl

namespace Sole
variable {calls : List Call} {h h' : Hub} {a : Call}

/-- Once the token of the live one has fired, all have. -/
theorem evicted_fired (s : Sole calls h) : ∀ c ∈ h.evicted, c.cancelled = true := by
  intro c' hmem
  obtain ⟨c, hc, rfl⟩ := List.mem_map.mp hmem
  by_cases hl : h.live = some c.id
  · rw [if_pos hl]
    rfl
  · rw [if_neg hl]
    exact s.fired c hc hl

theorem quiet (s : Sole calls h) (q : Quiet h h') (ha : a.installs = none) :
    Sole (calls ++ [a]) h' where
  numbers := by rw [q.numbers, s.numbers, attached_concat, ha, Option.toList_none, List.append_nil]
  nodup := q.numbers ▸ s.nodup
  issued := fun id hid => Nat.le_trans (s.issued id (q.numbers ▸ hid)) q.issued
  live := fun id hl => q.numbers ▸ s.live id (q.live ▸ hl)
  fired := by
    intro c' hmem hl
    obtain ⟨c, hc, hid, hfired⟩ := q.tokens c' hmem
    refine hfired (s.fired c hc ?_)
    rw [hid, ← q.live]
    exact hl
  table := fun hl => q.wanted.trans (s.table (q.live ▸ hl))

theorem attach (s : Sole calls h) {c : Connection} (ha : (Call.attach c).Lawful h) :
    Sole (calls ++ [.attach c]) (h.attach c) := by
  obtain ⟨hlive, hwanted, hissued, -⟩ := attach_fields h c
  obtain ⟨-, hle, hnew⟩ := ha
  have hnumbers := attach_numbers h c
  refine ⟨?_, ?_, ?_, ?_, ?_, fun _ => hwanted⟩
  · rw [hnumbers, s.numbers, attached_concat]
    rfl
  · rw [hnumbers]
    exact List.Nodup.append s.nodup (List.nodup_singleton _) (by simpa using hnew)
  · intro id hid
    rw [hnumbers, List.mem_append, List.mem_singleton] at hid
    rw [hissued]
    rcases hid with hid | rfl
    · exact s.issued id hid
    · exact hle
  · intro id hl
    rw [hlive] at hl
    cases hl
    rw [hnumbers]
    simp
  · intro c' hmem hl
    rw [attach_connections, List.mem_append, List.mem_singleton] at hmem
    rcases hmem with hmem | rfl
    · exact s.evicted_fired c' hmem
    · exact absurd hlive hl

theorem drop (s : Sole calls h) {id : Nat} (hl : h.live = some id) (reason : String) :
    Sole calls (h.dropConnection id reason) := by
  obtain ⟨hsame, hlive, hwanted, -⟩ := dropConnection_of_live hl reason
  refine ⟨hsame.numbers.trans s.numbers, ?_, ?_, ?_, ?_, fun _ => hwanted⟩
  · rw [hsame.numbers]
    exact s.nodup
  · rw [hsame.numbers, hsame.issued]
    exact s.issued
  · intro i hi
    rw [hlive] at hi
    cases hi
  · intro c hmem _
    rw [dropConnection_connections hl] at hmem
    exact s.evicted_fired c hmem

/-- While a consumer is live, any table will do. -/
theorem table_of_live (s : Sole calls h) {id : Nat} (hl : h.live = some id) (ha : a.installs = none)
    (wanted : List PaneId) (e : Event) : Sole (calls ++ [a]) ({ h with wanted }.note e) where
  numbers := by
    rw [attached_concat, ha, Option.toList_none, List.append_nil]
    exact s.numbers
  nodup := s.nodup
  issued := s.issued
  live := s.live
  fired := s.fired
  table := fun hn => by
    have hn : h.live = none := hn
    rw [hl] at hn
    cases hn

/-- **A call keeps the invariant.** -/
theorem call (s : Sole calls h) (ha : a.Lawful h) : Sole (calls ++ [a]) (h.call a) := by
  obtain ⟨es, he⟩ := effect_call h a
  generalize h.call a = h' at he
  cases he with
  | quiet hn q => exact s.quiet q hn
  | attach c => exact s.attach ha
  | drop reason hn q hl => exact (s.quiet q hn).drop (q.live.trans hl) reason
  | subscribe hl _ => exact s.table_of_live hl rfl _ _
  | unsubscribe hl _ => exact s.table_of_live hl rfl _ _

/-- **Any number of calls keeps it.** -/
theorem called {policy : HubPolicy} (hl : Along Call.Lawful (fresh policy) calls) :
    Sole calls ((fresh policy).called calls) :=
  called_induct (sole_fresh policy) (fun _ _ _ _ s ha => s.call ha) hl

/-- The connection that is live is one, if any is. -/
theorem countP_live (s : Sole calls h) :
    h.connections.countP (fun c => h.live = some c.id) = if h.isActive then 1 else 0 := by
  unfold isActive
  cases hl : h.live with
  | none => simp
  | some id =>
    have hone : h.numbers.count id = 1 := List.count_eq_one_of_mem s.nodup (s.live id hl)
    rw [List.count, Hub.numbers, List.countP_map] at hone
    rw [Option.isSome_some, if_pos rfl, ← hone]
    refine List.countP_congr fun c _ => ?_
    rw [decide_eq_true_iff, Function.comp_apply, beq_iff_eq, Option.some_inj, eq_comm]

end Sole

/-- **At most one consumer is live**, after any number of calls, for whichever connections. Every
connection that was ever installed is known, by a number of its own; as many of them are live as the
hub says, which is one or none, and the tokens of all others have fired. While none is live, and
right after one was installed, no pane is asked for. A teardown or a request for a connection that is
not live changes nothing at all. -/
theorem single_consumer (policy : HubPolicy) (calls : List Call)
    (hl : Along Call.Lawful (fresh policy) calls) :
    let h := (fresh policy).called calls
    h.numbers = attached calls ∧ h.numbers.Nodup ∧
    h.connections.countP (fun c => h.live = some c.id) = (if h.isActive then 1 else 0) ∧
    (∀ c ∈ h.connections, h.live ≠ some c.id → c.cancelled = true) ∧
    (h.live = none → h.wanted = []) ∧
    (∀ c, (h.attach c).live = some c.id ∧ (h.attach c).wanted = []) ∧
    (∀ id, h.live ≠ some id → (∀ reason, h.dropConnection id reason = h) ∧
      (∀ panes, h.subscribe id panes = h) ∧ (∀ panes, h.unsubscribe id panes = h)) := by
  intro h
  have s : Sole calls h := Sole.called hl
  refine ⟨s.numbers, s.nodup, s.countP_live, s.fired, s.table, fun c => ?_, fun id hne => ?_⟩
  · obtain ⟨hlive, hwanted, -⟩ := attach_fields h c
    exact ⟨hlive, hwanted⟩
  · exact ⟨dropConnection_of_ne hne, subscribe_of_ne hne, unsubscribe_of_ne hne⟩

/-- A consumer that is replaced, and whose loops go on for a while. -/
def succession : List Call :=
  [.issue, .attach (.fresh default 1 0), .subscribe 1 ["%0", "%1", "%0"], .issue,
    .attach (.fresh default 2 5), .subscribe 1 ["%2"], .drop 1 "peer went away",
    .subscribe 2 ["%1"]]

theorem single_consumer_after_succession :
    Along Call.Lawful (fresh default) succession ∧
    let h := (fresh default).called succession
    h.live = some 2 ∧ h.wanted = ["%1"] ∧
      (h.connections.map fun c => (c.id, c.cancelled)) = [(1, true), (2, false)] ∧
      ∀ reason, h.dropConnection 1 reason = h := by
  have hl : Along Call.Lawful (fresh default) succession := by decide
  obtain ⟨-, -, -, -, -, -, hstale⟩ := single_consumer default succession hl
  exact ⟨hl, rfl, by decide +kernel, rfl, (hstale 1 (by decide)).1⟩

end PaneRelay.Hub
