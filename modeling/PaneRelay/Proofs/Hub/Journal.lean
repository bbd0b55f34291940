import PaneRelay.Proofs.Hub.Sole

/-! # The journal tells the whole story

Who reads the journal from its start knows at any time who is live and which panes are asked for, to
the order of the list. Each way in which a call can change these two is told of by the entries that
come with it (`Effect`), and nothing else is told.

* `Told`, `told`: what is known from a journal.
* `arrivals`, `departures`: the connections of which it says that they came and went.
* `addAll_new`, `removeAll_gone`: what is told of a table that changes.
* `Effect.journal`, `Effect.told`, …: what a call adds to the journal, and what is known from that.
* `Journaled`: the invariant; `journal_faithful`: what it says of a hub. -/

namespace PaneRelay.Hub

open scoped List

/-! ### Reading a journal -/

/-- **What is known from a journal.** -/
structure Told where
  /-- Who is live. -/
  live : Option Nat := none
  /-- Which panes are asked for. -/
  wanted : List PaneId := []
deriving DecidableEq, Repr

/-- What is known after another entry. -/
def Told.next (t : Told) : Event → Told
  | .connected id => ⟨some id, []⟩
  | .disconnected _ _ => ⟨none, []⟩
  | .subscribed panes => { t with wanted := t.wanted ++ panes }
  | .unsubscribed panes => { t with wanted := t.wanted.filter fun p => !panes.contains p }

/-- **What is known after all entries**, from the empty state on. -/
def told (es : List Event) : Told := es.foldl Told.next {}

theorem told_append (es es' : List Event) : told (es ++ es') = es'.foldl Told.next (told es) :=
  List.foldl_append

/-- The consumer of which an entry says that it came. -/
def Event.arrival : Event → Option Nat
  | .connected id => some id
  | _ => none

/-- The consumer of which an entry says that it went. -/
def Event.departure : Event → Option Nat
  | .disconnected id _ => some id
  | _ => none

/-- The consumers that came, oldest first. -/
def arrivals (es : List Event) : List Nat := es.filterMap Event.arrival

/-- The consumers that went, oldest first. -/
def departures (es : List Event) : List Nat := es.filterMap Event.departure

theorem arrivals_append (es es' : List Event) :
    arrivals (es ++ es') = arrivals es ++ arrivals es' := List.filterMap_append

theorem departures_append (es es' : List Event) :
    departures (es ++ es') = departures es ++ departures es' := List.filterMap_append

/-- **Whether an entry is apt** for a table that changes: the panes that it names, if it names any,
are each named once, and were asked for before or after, as it says, and not the other way. -/
def Event.Apt (old new : List PaneId) : Event → Prop
  | .subscribed panes => panes ≠ [] ∧ panes.Nodup ∧ ∀ p ∈ panes, p ∉ old ∧ p ∈ new
  | .unsubscribed panes => panes ≠ [] ∧ panes.Nodup ∧ ∀ p ∈ panes, p ∈ old ∧ p ∉ new
  | _ => True

/-! ### Tables that change -/

theorem addAll_fst (w ps : List PaneId) : (addAll w ps).1 = w ++ (addAll w ps).2 := by
  induction ps generalizing w with
  | nil => exact (List.append_nil w).symm
  | cons q ps ih =>
    unfold addAll
    split
    · exact ih w
    · have hrest := ih (w ++ [q])
      rwa [List.append_assoc] at hrest

/-- **What was added** is named once, and was not there. -/
theorem addAll_new (w ps : List PaneId) :
    (addAll w ps).2.Nodup ∧ ∀ p ∈ (addAll w ps).2, p ∉ w := by
  induction ps generalizing w with
  | nil => exact ⟨List.nodup_nil, fun p hp => absurd hp List.not_mem_nil⟩
  | cons q ps ih =>
    unfold addAll
    split
    · exact ih w
    · next hq =>
      have hq : q ∉ w := by simpa using hq
      obtain ⟨hnodup, hnew⟩ := ih (w ++ [q])
      refine ⟨List.nodup_cons.mpr ⟨fun hmem => hnew q hmem (by simp), hnodup⟩, fun p hp => ?_⟩
      rcases List.mem_cons.mp hp with rfl | hp
      · exact hq
      · intro hw
        exact hnew p hp (List.mem_append_left _ hw)

theorem removeAll_fst (w ps : List PaneId) :
    (removeAll w ps).1 = w.filter fun p => !(removeAll w ps).2.contains p := by
  induction ps generalizing w with
  | nil => simp [removeAll]
  | cons q ps ih =>
    unfold removeAll
    split
    · simp only
      rw [ih, List.filter_filter]
      refine List.filter_congr fun p _ => ?_
      rw [List.contains_cons, Bool.not_or, Bool.and_comm]
      rfl
    · exact ih w

/-- **What was taken out** is named once, and was there. -/
theorem removeAll_gone (w ps : List PaneId) :
    (removeAll w ps).2.Nodup ∧ ∀ p ∈ (removeAll w ps).2, p ∈ w := by
  induction ps generalizing w with
  | nil => exact ⟨List.nodup_nil, fun p hp => absurd hp List.not_mem_nil⟩
  | cons q ps ih =>
    unfold removeAll
    split
    · next hq =>
      have hq : q ∈ w := by simpa using hq
      obtain ⟨hnodup, hgone⟩ := ih (w.filter fun p => p != q)
      refine ⟨List.nodup_cons.mpr ⟨fun hmem => ?_, hnodup⟩, fun p hp => ?_⟩
      · -- `q` is out by then
        have := hgone q hmem
        simp at this
      · rcases List.mem_cons.mp hp with rfl | hp
        · exact hq
        · exact List.mem_of_mem_filter (hgone p hp)
    · exact ih w

/-! ### What a call adds -/

/-- **What a call adds to the journal.** -/
def news (h : Hub) (a : Call) : List Event := (h.call a).journal.drop h.journal.length

/-- Whether a connection is installed in place of a live one. -/
def replaces (h : Hub) (a : Call) : Bool := a.installs.isSome && h.isActive

theorem attach_journal (h : Hub) (c : Connection) :
    (h.attach c).journal = h.journal ++ (h.farewell ++ [.connected c.id]) := by
  unfold attach farewell
  cases h.live with
  | none => rfl
  | some id => exact List.append_assoc _ _ _

theorem attach_metrics (h : Hub) (c : Connection) :
    (h.attach c).metrics = h.metrics.opened h.isActive := by
  unfold attach isActive
  cases h.live <;> rfl

theorem farewell_arrivals (h : Hub) : arrivals h.farewell = [] := by
  unfold farewell
  cases h.live <;> rfl

theorem farewell_departures (h : Hub) : departures h.farewell = h.live.toList := by
  unfold farewell
  cases h.live <;> rfl

namespace Effect
variable {h h' : Hub} {a : Call} {es : List Event}

theorem journal (e : Effect h a es h') : h'.journal = h.journal ++ es := by
  cases e with
  | quiet hn q => rw [q.journal, List.append_nil]
  | attach c => exact attach_journal h c
  | drop reason hn q hl =>
    unfold dropConnection
    rw [if_pos (q.live.trans hl), ← q.journal]
    rfl
  | subscribe hl hn => rfl
  | unsubscribe hl hn => rfl

/-- **What is known stays right.** -/
theorem told (e : Effect h a es h') (ht : Hub.told h.journal = ⟨h.live, h.wanted⟩) :
    Hub.told h'.journal = ⟨h'.live, h'.wanted⟩ := by
  rw [e.journal, told_append, ht]
  cases e with
  | quiet hn q => rw [q.live, q.wanted]; rfl
  | attach c =>
    obtain ⟨hlive, hwanted, -⟩ := attach_fields h c
    rw [List.foldl_append, hlive, hwanted]
    rfl
  | drop reason hn q hl =>
    obtain ⟨-, hlive, hwanted, -⟩ := dropConnection_of_live (q.live.trans hl) reason
    rw [hlive, hwanted]
    rfl
  | @subscribe id panes hl hn =>
    show Told.mk h.live (h.wanted ++ (addAll h.wanted panes).2) =
      ⟨h.live, (addAll h.wanted panes).1⟩
    rw [addAll_fst]
  | @unsubscribe id panes hl hn =>
    show Told.mk h.live (h.wanted.filter fun p => !(removeAll h.wanted panes).2.contains p) =
      ⟨h.live, (removeAll h.wanted panes).1⟩
    rw [← removeAll_fst]

/-- The table names no pane twice. -/
theorem nodup (e : Effect h a es h') (hw : h.wanted.Nodup) : h'.wanted.Nodup := by
  cases e with
  | quiet hn q => exact q.wanted ▸ hw
  | attach c => exact (attach_fields h c).2.1 ▸ List.nodup_nil
  | drop reason hn q hl =>
    exact (dropConnection_of_live (q.live.trans hl) reason).2.2.1 ▸ List.nodup_nil
  | @subscribe id panes hl hn =>
    obtain ⟨hnodup, hnew⟩ := addAll_new h.wanted panes
    show (addAll h.wanted panes).1.Nodup
    rw [addAll_fst]
    exact List.Nodup.append hw hnodup fun p hp hq => hnew p hq hp
  | @unsubscribe id panes hl hn =>
    show (removeAll h.wanted panes).1.Nodup
    rw [removeAll_fst]
    exact hw.filter _

theorem arrivals (e : Effect h a es h') : Hub.arrivals es = a.installs.toList := by
  cases e with
  | quiet hn q => rw [hn]; rfl
  | attach c => rw [arrivals_append, farewell_arrivals]; rfl
  | drop reason hn q hl => rw [hn]; rfl
  | subscribe hl hn => rfl
  | unsubscribe hl hn => rfl

/-- **Who was live or came, went or is live.** -/
theorem balance (e : Effect h a es h') :
    Hub.arrivals es ++ h.live.toList = h'.live.toList ++ departures es := by
  rw [e.arrivals]
  cases e with
  | quiet hn q =>
    rw [hn, q.live, Option.toList_none, List.nil_append]
    exact (List.append_nil _).symm
  | attach c =>
    rw [departures_append, farewell_departures, (attach_fields h c).1]
    exact congrArg (c.id :: ·) (List.append_nil _).symm
  | drop reason hn q hl =>
    rw [hn, hl, (dropConnection_of_live (q.live.trans hl) reason).2.1]
    rfl
  | subscribe hl hn => exact (List.append_nil _).symm
  | unsubscribe hl hn => exact (List.append_nil _).symm

/-- **A departure is told** exactly when the live one is live no more. -/
theorem departs {calls : List Call} (e : Effect h a es h') (s : Sole calls h) (ha : a.Lawful h)
    (id : Nat) : id ∈ departures es ↔ h.live = some id ∧ h'.live ≠ some id := by
  cases e with
  | quiet hn q => simp [departures, q.live]
  | attach c =>
    have hnew : h.live = some id → c.id ≠ id := by
      rintro hl rfl
      exact ha.2.2 (s.live _ hl)
    rw [departures_append, farewell_departures, (attach_fields h c).1]
    simpa [departures, Event.departure] using hnew
  | drop reason hn q hl =>
    rw [hl, (dropConnection_of_live (q.live.trans hl) reason).2.1]
    simp [departures, Event.departure, eq_comm]
  | subscribe hl hn => simp [departures, Event.departure, note]
  | unsubscribe hl hn => simp [departures, Event.departure, note]

/-- **What is told of the table** is apt. -/
theorem apt (e : Effect h a es h') : ∀ ev ∈ es, ev.Apt h.wanted h'.wanted := by
  intro ev hev
  cases e with
  | quiet hn q => cases hev
  | attach c =>
    rcases List.mem_append.mp hev with hev | hev
    · obtain ⟨id, -, rfl⟩ := List.mem_map.mp hev
      trivial
    · rw [List.mem_singleton.mp hev]
      trivial
  | drop reason hn q hl =>
    rw [List.mem_singleton.mp hev]
    trivial
  | @subscribe id panes hl hn =>
    obtain ⟨hnodup, hnew⟩ := addAll_new h.wanted panes
    rw [List.mem_singleton.mp hev]
    refine ⟨hn, hnodup, fun p hp => ⟨hnew p hp, ?_⟩⟩
    show p ∈ (addAll h.wanted panes).1
    rw [addAll_fst]
    exact List.mem_append_right _ hp
  | @unsubscribe id panes hl hn =>
    obtain ⟨hnodup, hgone⟩ := removeAll_gone h.wanted panes
    rw [List.mem_singleton.mp hev]
    refine ⟨hn, hnodup, fun p hp => ⟨hgone p hp, ?_⟩⟩
    show p ∉ (removeAll h.wanted panes).1
    rw [removeAll_fst]
    simp [hp]

/-- **The counters** count the arrivals, and those in place of another consumer. -/
theorem counters (e : Effect h a es h') :
    h'.metrics.connections = h.metrics.connections + UInt64.ofNat (Hub.arrivals es).length ∧
      h'.metrics.replaced = h.metrics.replaced + UInt64.ofNat (h.replaces a).toNat := by
  rw [e.arrivals]
  unfold replaces
  have hzero : ∀ n : UInt64, n = n + UInt64.ofNat 0 := fun n => (UInt64.add_zero n).symm
  cases e with
  | quiet hn q =>
    rw [hn, q.opened, q.replaced]
    exact ⟨hzero _, hzero _⟩
  | attach c =>
    rw [attach_metrics]
    cases h.isActive with
    | true => exact ⟨rfl, rfl⟩
    | false => exact ⟨rfl, hzero _⟩
  | drop reason hn q hl =>
    rw [hn, (dropConnection_of_live (q.live.trans hl) reason).2.2.2, q.opened, q.replaced]
    exact ⟨hzero _, hzero _⟩
  | subscribe hl hn => exact ⟨hzero _, hzero _⟩
  | unsubscribe hl hn => exact ⟨hzero _, hzero _⟩

end Effect

/-! ### The invariant -/

/-- How many connections were installed in place of a live one. -/
def replacements (h : Hub) : List Call → Nat
  | [] => 0
  | a :: calls => (h.replaces a).toNat + replacements (h.call a) calls

theorem replacements_concat (h : Hub) (calls : List Call) (a : Call) :
    h.replacements (calls ++ [a]) = h.replacements calls + ((h.called calls).replaces a).toNat := by
  induction calls generalizing h with
  | nil => exact Nat.add_comm _ _
  | cons b calls ih =>
    rw [List.cons_append, replacements, ih, replacements, Nat.add_assoc]
    rfl

/-- **The journal is up to date.** It tells who is live and what is asked for; it tells of every
connection that it came, and of every one but the live one that it went; and the counters agree with
it. -/
structure Journaled (policy : HubPolicy) (calls : List Call) (h : Hub) : Prop where
  sole : Sole calls h
  told : told h.journal = ⟨h.live, h.wanted⟩
  nodup : h.wanted.Nodup
  arrivals : arrivals h.journal = attached calls
  balance : Hub.arrivals h.journal ~ h.live.toList ++ departures h.journal
  connections : h.metrics.connections = UInt64.ofNat (Hub.arrivals h.journal).length
  replaced : h.metrics.replaced = UInt64.ofNat ((fresh policy).replacements calls)

theorem journaled_fresh (policy : HubPolicy) : Journaled policy [] (fresh policy) where
  sole := sole_fresh policy
  told := rfl
  nodup := List.nodup_nil
  arrivals := rfl
  balance := List.Perm.nil
  connections := rfl
  replaced := rfl

namespace Journaled
variable {policy : HubPolicy} {calls : List Call} {h : Hub} {a : Call}

/-- **A call keeps the journal up to date.** -/
theorem call (j : Journaled policy calls h) (hh : h = (fresh policy).called calls)
    (ha : a.Lawful h) : Journaled policy (calls ++ [a]) (h.call a) := by
  obtain ⟨es, e⟩ := effect_call h a
  obtain ⟨hconnections, hreplaced⟩ := e.counters
  have harrivals : Hub.arrivals (h.call a).journal = Hub.arrivals h.journal ++ Hub.arrivals es := by
    rw [e.journal, arrivals_append]
  refine ⟨j.sole.call ha, e.told j.told, e.nodup j.nodup, ?_, ?_, ?_, ?_⟩
  · rw [harrivals, j.arrivals, e.arrivals, attached_concat]
  · rw [harrivals, e.journal, departures_append]
    calc Hub.arrivals h.journal ++ Hub.arrivals es
      _ ~ h.live.toList ++ departures h.journal ++ Hub.arrivals es := j.balance.append_right _
      _ ~ Hub.arrivals es ++ h.live.toList ++ departures h.journal := by
          rw [List.append_assoc (Hub.arrivals es)]
          exact List.perm_append_comm
      _ ~ (h.call a).live.toList ++ departures es ++ departures h.journal := by rw [e.balance]
      _ ~ (h.call a).live.toList ++ (departures h.journal ++ departures es) := by
          rw [List.append_assoc]
          exact List.perm_append_comm.append_left _
  · rw [hconnections, j.connections, harrivals, List.length_append, UInt64.ofNat_add]
  · rw [hreplaced, j.replaced, replacements_concat, ← hh, UInt64.ofNat_add]

theorem called (hl : Along Call.Lawful (fresh policy) calls) :
    Journaled policy calls ((fresh policy).called calls) :=
  called_induct (journaled_fresh policy) (fun _ _ _ hh j ha => j.call hh ha) hl

/-- **Everyone who came and is not live went once**, and nobody else went. -/
theorem count_departures (j : Journaled policy calls h) (id : Nat) :
    (departures h.journal).count id = if id ∈ attached calls ∧ h.live ≠ some id then 1 else 0 := by
  have hbalance := j.balance.count_eq id
  have hnodup : (attached calls).Nodup := j.sole.numbers ▸ j.sole.nodup
  rw [j.arrivals, hnodup.count, List.count_append] at hbalance
  by_cases hl : h.live = some id
  · have hmem : id ∈ attached calls := j.sole.numbers ▸ j.sole.live id hl
    rw [if_pos hmem, hl, Option.toList_some, List.count_singleton_self] at hbalance
    rw [if_neg fun hn => hn.2 hl]
    omega
  · have hnone : h.live.toList.count id = 0 := by
      rw [List.count_eq_zero, Option.mem_toList]
      exact hl
    rw [hnone, Nat.zero_add] at hbalance
    rw [← hbalance]
    simp only [hl, not_false_eq_true, ne_eq, and_true]

end Journaled

/-! ### One after another -/

/-- **Whether a connection is installed before another number is given out.** -/
def Call.Prompt (h : Hub) : Call → Prop
  | .attach c => c.id = h.issued
  | _ => True

instance (h : Hub) : DecidablePred (Call.Prompt h)
  | .attach c => inferInstanceAs (Decidable (c.id = h.issued))
  | .issue | .drop _ _ | .subscribe _ _ | .unsubscribe _ _ | .broadcast _ _ | .own _ _ =>
    isTrue trivial

/-- **Connections that are installed one after another** have numbers that increase. -/
theorem attached_increasing {policy : HubPolicy} {calls : List Call}
    (hl : Along Call.Lawful (fresh policy) calls) (hp : Along Call.Prompt (fresh policy) calls) :
    (attached calls).Pairwise (· < ·) := by
  induction calls using List.reverseRecOn with
  | nil => exact List.Pairwise.nil
  | append_singleton calls a ih =>
    obtain ⟨hl, ha⟩ := along_concat.mp hl
    obtain ⟨hp, hlast⟩ := along_concat.mp hp
    have s : Sole calls ((fresh policy).called calls) := Sole.called hl
    rw [attached_concat, List.pairwise_append]
    refine ⟨ih hl hp, ?_, fun i hi j hj => ?_⟩
    · cases a.installs <;> simp
    · cases a with
      | attach c =>
        rw [List.mem_singleton.mp hj]
        rw [← s.numbers] at hi
        have hle : i ≤ c.id := hlast ▸ s.issued i hi
        have hne : i ≠ c.id := fun he => ha.2.2 (he ▸ hi)
        omega
      | _ => cases hj

/-- **The journal is faithful**, after any number of calls, for whichever connections. What is known
from it, from the empty state on, is who is live and which panes are asked for. Every connection came
once, in the order in which they were installed, with numbers that increase if they were installed
one after another; and it went once, unless it is live. The next call only adds to the journal: that
a connection came, if it is installed; that one went, exactly if it is live no more; and panes, each
once and at least one, whose status is another one after it. The counters count the connections, and
those that found a consumer live. -/
theorem journal_faithful (policy : HubPolicy) (calls : List Call)
    (hl : Along Call.Lawful (fresh policy) calls) :
    let h := (fresh policy).called calls
    told h.journal = ⟨h.live, h.wanted⟩ ∧ h.wanted.Nodup ∧
    arrivals h.journal = attached calls ∧ (attached calls).Nodup ∧
    (Along Call.Prompt (fresh policy) calls → (arrivals h.journal).Pairwise (· < ·)) ∧
    (∀ id, (departures h.journal).count id =
      if id ∈ attached calls ∧ h.live ≠ some id then 1 else 0) ∧
    (∀ a, a.Lawful h →
      (h.call a).journal = h.journal ++ h.news a ∧
      arrivals (h.news a) = a.installs.toList ∧
      (∀ id, id ∈ departures (h.news a) ↔ h.live = some id ∧ (h.call a).live ≠ some id) ∧
      (∀ e ∈ h.news a, e.Apt h.wanted (h.call a).wanted)) ∧
    h.metrics.connections = UInt64.ofNat (arrivals h.journal).length ∧
    h.metrics.replaced = UInt64.ofNat ((fresh policy).replacements calls) := by
  intro h
  have j : Journaled policy calls h := Journaled.called hl
  refine ⟨j.told, j.nodup, j.arrivals, j.sole.numbers ▸ j.sole.nodup, fun hp => ?_,
    j.count_departures, fun a ha => ?_, j.connections, j.replaced⟩
  · rw [j.arrivals]
    exact attached_increasing hl hp
  · obtain ⟨es, e⟩ := effect_call h a
    have hnews : h.news a = es := by
      unfold news
      rw [e.journal, List.drop_left]
    rw [hnews]
    exact ⟨e.journal, e.arrivals, e.departs j.sole ha, e.apt⟩

theorem journal_faithful_after_succession :
    Along Call.Lawful (fresh default) succession ∧ Along Call.Prompt (fresh default) succession ∧
    let h := (fresh default).called succession
    h.journal = [.connected 1, .subscribed ["%0", "%1"], .disconnected 1 replacedReason,
        .connected 2, .subscribed ["%1"]] ∧
      told h.journal = ⟨some 2, ["%1"]⟩ ∧ (arrivals h.journal).Pairwise (· < ·) ∧
      (departures h.journal).count 1 = 1 ∧ 2 ∈ departures (h.news (.drop 2 "closed")) ∧
      h.metrics.connections = 2 ∧ h.metrics.replaced = 1 := by
  have hl : Along Call.Lawful (fresh default) succession := by decide
  have hp : Along Call.Prompt (fresh default) succession := by decide
  obtain ⟨htold, -, -, -, hincrease, hcount, hnext, hconnections, hreplaced⟩ :=
    journal_faithful default succession hl
  obtain ⟨-, -, hdeparts, -⟩ := hnext (.drop 2 "closed") trivial
  have hlive : ((fresh default).called succession).live = some 2 := rfl
  have hwanted : ((fresh default).called succession).wanted = ["%1"] := by decide +kernel
  refine ⟨hl, hp, by decide +kernel, ?_, hincrease hp, ?_, ?_, ?_, ?_⟩
  · rw [htold, hlive, hwanted]
  · rw [hcount 1]
    decide
  · exact (hdeparts 2).mpr ⟨hlive, by decide⟩
  · rw [hconnections]
    decide +kernel
  · rw [hreplaced]
    decide

end PaneRelay.Hub
