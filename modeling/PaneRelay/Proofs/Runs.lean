/-! # Runs of steps

What can happen to a system is given by single steps, each of which can be taken in some states only.
A run takes one step after the other, if they can be taken in this order.

* `foldlM_induct`: what every step keeps.
* `foldlM_length_le`: a number that every step lowers says how long a run is at most. -/

namespace PaneRelay

universe u v

variable {σ : Type u} {α : Type v} {step : σ → α → Option σ} {P : σ → Prop} {s t : σ} {as : List α}

/-- **What holds at first, and stays with every step**, holds after a run. -/
theorem foldlM_induct (hstep : ∀ s a t, P s → step s a = some t → P t) (hs : P s)
    (hr : as.foldlM step s = some t) : P t := by
  induction as generalizing s with
  | nil =>
    obtain rfl : s = t := by simpa using hr
    exact hs
  | cons a as ih =>
    obtain ⟨u, hu, hr⟩ := Option.bind_eq_some_iff.mp hr
    exact ih (hstep s a u hs hu) hr

/-- **A run is not longer** than the number that each of its steps lowers. -/
theorem foldlM_length_le {left : σ → Nat}
    (hstep : ∀ s a t, P s → step s a = some t → P t ∧ left t < left s) (hs : P s)
    (hr : as.foldlM step s = some t) : as.length + left t ≤ left s := by
  induction as generalizing s with
  | nil =>
    obtain rfl : s = t := by simpa using hr
    simp
  | cons a as ih =>
    obtain ⟨u, hu, hr⟩ := Option.bind_eq_some_iff.mp hr
    obtain ⟨hpu, hless⟩ := hstep s a u hs hu
    have hrest := ih hpu hr
    rw [List.length_cons]
    omega

end PaneRelay
