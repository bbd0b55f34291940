import PaneRelay.Proofs.Hub.Payback
import PaneRelay.Proofs.Panes.Steps
import PaneRelay.Proofs.Replay

/-! # Whose history an exit takes along

A pane that leaves notes down the panes that are live at that moment, and has the histories of these
kept, at a moment of its own choosing. In between more panes may be started, and they are on no such
list: what they have said until then is dropped with the histories of the panes that have gone.

* `live_step`, `live_run`: panes become live only by being started.
* `noted_run`: what is noted down stays as it is.
* `forgotten_iff`: which live panes lose their histories to an exit.
* `newcomer_forgotten`: one that does. -/

namespace PaneRelay.PaneSet

theorem idOf_injective {m n : Nat} (h : idOf m = idOf n) : m = n := by
  have hl := congrArg String.toList h
  simp only [idOf, String.toList_append, Nat.toString_eq_repr, Nat.toList_repr] at hl
  have hd : Nat.toDigits 10 m = Nat.toDigits 10 n := List.append_cancel_left hl
  calc m = Nat.ofDigitChars 10 (Nat.toDigits 10 m) 0 := Nat.ofDigitChars_ten_toDigits.symm
    _ = Nat.ofDigitChars 10 (Nat.toDigits 10 n) 0 := by rw [hd]
    _ = n := Nat.ofDigitChars_ten_toDigits

namespace Yard

/-- The history of a pane, if there is one. -/
def history (y : Yard) (p : PaneId) : Option ByteArray := y.set.outlet.history p

variable {y z : Yard}

/-! ### Who is live -/

theorem live_effect {p : Pane} {w : Worker} {d : Duty} {q : PaneId}
    (h : q ∈ (y.effect p w d).live) : q ∈ y.set.live := by
  unfold effect at h
  split at h
  · exact h
  · exact h
  · exact List.mem_of_mem_filter h
  · exact h
  · exact h
  · exact h

/-- **A pane becomes live only by being started.** -/
theorem live_step {s : Step} (hs : y.step s = some z) :
    y.workers.length ≤ z.workers.length ∧ ∀ q ∈ z.set.live, q ∈ y.set.live ∨
      ∃ n, y.workers.length ≤ n ∧ n < z.workers.length ∧ q = idOf n := by
  cases step_change hs with
  | spawn =>
    refine ⟨by simp, fun q hq => ?_⟩
    obtain hq | hq := List.mem_append.mp hq
    · exact .inl hq
    · exact .inr ⟨y.workers.length, Nat.le_refl _, by simp, List.mem_singleton.mp hq⟩
  | read => exact ⟨(List.length_set ..).ge, fun q hq => .inl (write_live .. ▸ hq)⟩
  | duty => exact ⟨(List.length_set ..).ge, fun q hq => .inl (live_effect hq)⟩
  | aside _ h => exact ⟨(congrArg _ h.workers).ge, fun q hq => .inl (h.live ▸ hq)⟩

theorem live_run {steps : List Step} (hr : y.run steps = some z) :
    y.workers.length ≤ z.workers.length ∧ ∀ q ∈ z.set.live, q ∈ y.set.live ∨
      ∃ n, y.workers.length ≤ n ∧ n < z.workers.length ∧ q = idOf n := by
  refine run_induct (P := fun z => y.workers.length ≤ z.workers.length ∧
    ∀ q ∈ z.set.live, q ∈ y.set.live ∨
      ∃ n, y.workers.length ≤ n ∧ n < z.workers.length ∧ q = idOf n)
    (fun u s v hu hs => ?_) ⟨Nat.le_refl _, fun _ => .inl⟩ hr
  obtain ⟨hle, hlive⟩ := live_step hs
  refine ⟨Nat.le_trans hu.1 hle, fun q hq => ?_⟩
  obtain hq | ⟨n, hn, hlt, rfl⟩ := hlive q hq
  · obtain hq | ⟨n, hn, hlt, rfl⟩ := hu.2 q hq
    · exact .inl hq
    · exact .inr ⟨n, hn, Nat.lt_of_lt_of_le hlt hle, rfl⟩
  · exact .inr ⟨n, Nat.le_trans hu.1 hn, hlt, rfl⟩

/-! ### What is noted down -/

/-- A task that has noted down who was live keeps to it. -/
def Noted (live : List PaneId) (w : Worker) : Prop :=
  w.stage = .parted live ∨ w.stage = .thinned live ∨ w.stage = .done

theorem Noted.act {live : List PaneId} {w w' : Worker} {p : Pane} {d : Duty} (h : Noted live w)
    (ha : y.act p w d = some w') : Noted live w' := by
  unfold Yard.act at ha
  obtain hs | hs | hs := h
  · cases d <;> simp [hs] at ha
    exact .inr (.inl (ha ▸ rfl))
  · cases d <;> simp [hs] at ha
    exact .inr (.inr (ha ▸ rfl))
  · cases d <;> simp [hs] at ha

/-- **What stays with a task in all that it does** stays with it in every step. -/
theorem worker_step {P : Worker → Prop} {i : Nat} {s : Step} {w : Worker}
    (hread : ∀ w rs, P w → P { w with readers := rs })
    (hact : ∀ p w d w', P w → y.act p w d = some w' → P w') (hw : y.workers[i]? = some w)
    (hP : P w) (hs : y.step s = some z) : ∃ w', z.workers[i]? = some w' ∧ P w' := by
  have hlt : i < y.workers.length := (List.getElem?_eq_some_iff.mp hw).1
  have hset {k : Nat} {v v' : Worker} (hv : y.workers[k]? = some v) (hPv : P v → P v') :
      ∃ w', (y.workers.set k v')[i]? = some w' ∧ P w' := by
    by_cases hk : k = i
    · subst hk
      obtain rfl : w = v := Option.some.inj (hw.symm.trans hv)
      exact ⟨v', by simp [hlt], hPv hP⟩
    · exact ⟨w, by rw [List.getElem?_set_ne hk, hw], hP⟩
  cases step_change hs with
  | spawn => exact ⟨w, by rw [List.getElem?_append_left hlt, hw], hP⟩
  | @read _ _ _ v _ _ _ hv => exact hset hv (hread v _)
  | @duty _ d v v' p hv _ ha => exact hset hv fun hPv => hact p v d v' hPv ha
  | aside _ h => exact ⟨w, h.workers ▸ hw, hP⟩

theorem noted_run {live : List PaneId} {i : Nat} {steps : List Step} {w : Worker}
    (hw : y.workers[i]? = some w) (h : Noted live w) (hr : y.run steps = some z) :
    ∃ w', z.workers[i]? = some w' ∧ Noted live w' := by
  refine run_induct (P := fun z => ∃ w', z.workers[i]? = some w' ∧ Noted live w')
    (fun u s v hu hs => ?_) ⟨w, hw, h⟩ hr
  obtain ⟨w, hw, h⟩ := hu
  exact worker_step (fun _ _ h => h) (fun _ _ _ _ h ha => h.act ha) hw h hs

/-- **A pane leaves:** those that are live then are noted down. -/
theorem step_part {i : Nat} (hs : y.step (.duty i .part) = some z) :
    ∃ w, z.workers[i]? = some w ∧ w.stage = .parted z.set.live := by
  obtain ⟨w, p, w', hw, -, ha, rfl⟩ := step_duty.mp hs
  have hlt : i < y.workers.length := (List.getElem?_eq_some_iff.mp hw).1
  refine ⟨w', by simp [hlt], ?_⟩
  unfold Yard.act at ha
  cases hst : w.stage <;> simp [hst] at ha
  simp [← ha, effect, hst]

/-- **Histories are dropped:** all but those of the panes noted down. -/
theorem step_forget {i : Nat} {live : List PaneId} {w : Worker} (hw : y.workers[i]? = some w)
    (h : Noted live w) (hs : y.step (.duty i .forget) = some z) (q : PaneId) :
    z.history q = if live.contains q then y.history q else none := by
  obtain ⟨w', p, w'', hw', -, ha, rfl⟩ := step_duty.mp hs
  obtain rfl : w = w' := Option.some.inj (hw.symm.trans hw')
  have hst : w.stage = .thinned live := by
    unfold Yard.act at ha
    obtain hst | hst | hst := h
    · simp [hst] at ha
    · exact hst
    · simp [hst] at ha
  have he : (y.effect p w .forget).outlet =
      { y.set.outlet with fallback := y.set.outlet.fallback.retain live } := by
    simp only [effect, hst]
  unfold history
  rw [he]
  unfold Hub.Outlet.history Hub.Fallback.retain
  cases y.set.outlet.fallback with
  | recorded chunks => simp
  | kept r => exact Replay.history_retain r live q

/-! ### Who is forgotten -/

variable {policy : RestartPolicy} {batcher : Batcher} {outlet : Hub.Outlet}

theorem live_numbered {steps : List Step} (hr : (opened policy batcher outlet).run steps = some y)
    {q : PaneId} (hq : q ∈ y.set.live) : ∃ n < y.workers.length, q = idOf n := by
  obtain hnil | ⟨n, -, hlt, rfl⟩ := (live_run hr).2 q hq
  · exact absurd hnil List.not_mem_nil
  · exact ⟨n, hlt, rfl⟩

/-- **Which live panes lose their histories to an exit.** A pane leaves, anything happens, and then
it has histories dropped. A pane that is live at that moment and has a history keeps it if it was
live when the other one left, and loses it if it was started since. -/
theorem forgotten_iff {y₁ y₂ y₃ y₄ : Yard} {before between : List Step} {i : Nat}
    (hbefore : (opened policy batcher outlet).run before = some y₁)
    (hpart : y₁.step (.duty i .part) = some y₂) (hbetween : y₂.run between = some y₃)
    (hforget : y₃.step (.duty i .forget) = some y₄) {q : PaneId} (hq : q ∈ y₃.set.live)
    {d : ByteArray} (hd : y₃.history q = some d) :
    (y₄.history q = some d ↔ q ∈ y₂.set.live) ∧
      (y₄.history q = none ↔
        ∃ n, y₂.workers.length ≤ n ∧ n < y₃.workers.length ∧ q = idOf n) := by
  obtain ⟨w, hw, hst⟩ := step_part hpart
  obtain ⟨w', hw', hn⟩ := noted_run hw (.inl hst) hbetween
  have hh := step_forget hw' hn hforget q
  rw [hd] at hh
  -- only those that were live when the pane left are on its list
  by_cases hmem : q ∈ y₂.set.live
  · rw [if_pos (List.contains_iff_mem.mpr hmem)] at hh
    refine ⟨⟨fun _ => hmem, fun _ => hh⟩, fun hnone => ?_, fun ⟨n, hle, _, hqn⟩ => ?_⟩
    · exact absurd (hh.symm.trans hnone) (Option.some_ne_none d)
    · have hrun : (opened policy batcher outlet).run (before ++ [.duty i .part]) = some y₂ := by
        rw [run_concat, hbefore, Option.bind_some, hpart]
      obtain ⟨m, hlt, hqm⟩ := live_numbered hrun hmem
      have hnm : n = m := idOf_injective (hqn.symm.trans hqm)
      omega
  · rw [if_neg fun hc => hmem (List.contains_iff_mem.mp hc)] at hh
    refine ⟨⟨fun hsome => ?_, fun hin => absurd hin hmem⟩, fun _ => ?_, fun _ => hh⟩
    · exact absurd (hh.symm.trans hsome) (Option.some_ne_none d).symm
    · exact ((live_run hbetween).2 q hq).resolve_left hmem

/-! ### A neighbour and a newcomer -/

/-- A pane that has nothing to say. -/
def silent : Terminal := .native (.ofBehaviour { command := "true" } .done)

/-- A pane that says something. -/
def speaking : Terminal :=
  .native (.ofBehaviour { command := "echo" } (.writes .output "new".toUTF8 fun _ => .done))

/-- The first pane comes to its end and is about to leave. -/
def ending : List Step :=
  [.duty 0 .start, .read 0 0 .ask, .read 0 0 .halt, .duty 0 (.join .completed), .duty 0 .close,
    .duty 0 .release]

/-- The second one says something. -/
def talking : List Step :=
  [.duty 1 .start, .read 1 0 .ask, .read 1 0 (.get "new".toUTF8), .read 1 0 .hand]

/-- The second one is there when the first one leaves. -/
def before : List Step := [.spawn silent, .spawn speaking] ++ ending

/-- What it says is flushed before any history is dropped. -/
def meanwhile : List Step := talking ++ [.elapse 100, .duty 0 .thin]

/-- A neighbour keeps its history. -/
theorem neighbour_kept :
    (vacant.run (before ++ [.duty 0 .part] ++ meanwhile ++ [.duty 0 .forget])).map
      (fun y => y.history "%1") = some (some "new".toUTF8) := by
  have hlive₂ : (vacant.run (before ++ [.duty 0 .part])).map (fun y => y.set.live) =
    some ["%1"] := by decide +kernel
  have hlive₃ : (vacant.run (before ++ [.duty 0 .part] ++ meanwhile)).map (fun y => y.set.live) =
    some ["%1"] := by decide +kernel
  have hd : (vacant.run (before ++ [.duty 0 .part] ++ meanwhile)).map (fun y => y.history "%1") =
    some (some "new".toUTF8) := by decide +kernel
  have hsome : (vacant.run (before ++ [.duty 0 .part] ++ meanwhile ++ [.duty 0 .forget])).isSome =
    true := by decide +kernel
  obtain ⟨y₄, hy₄⟩ := Option.isSome_iff_exists.mp hsome
  obtain ⟨y₃, hy₃, hforget⟩ := Option.bind_eq_some_iff.mp (run_concat .. ▸ hy₄)
  obtain ⟨y₂, hy₂, hbetween⟩ := Option.bind_eq_some_iff.mp (run_append .. ▸ hy₃)
  obtain ⟨y₁, hy₁, hpart⟩ := Option.bind_eq_some_iff.mp (run_concat .. ▸ hy₂)
  rw [hy₂, Option.map_some, Option.some_inj] at hlive₂
  rw [hy₃, Option.map_some, Option.some_inj] at hlive₃ hd
  rw [hy₄, Option.map_some, Option.some_inj]
  refine (forgotten_iff hy₁ hpart hbetween hforget ?_ hd).1.mpr ?_
  · simp [hlive₃]
  · simp [hlive₂]

/-- **A live pane loses its history to an exit:** it was started when the first pane had left. -/
theorem newcomer_forgotten :
    let since := [.spawn silent] ++ ending ++ [.duty 0 .part, .spawn speaking] ++ talking ++
      [.duty 0 .thin]
    (vacant.run since).map (fun y => (y.set.live, y.history "%1")) =
        some (["%1"], some "new".toUTF8) ∧
      (vacant.run (since ++ [.duty 0 .forget])).map (fun y => (y.set.live, y.history "%1")) =
        some (["%1"], none) := by
  decide +kernel

end Yard

end PaneRelay.PaneSet
