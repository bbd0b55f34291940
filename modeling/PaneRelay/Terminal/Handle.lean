import PaneRelay.Terminal.Error

/-! # Guarded handles

A handle that can be taken away once. Whoever took a snapshot before keeps it; afterwards every
snapshot fails with `closed`.

* `Handle.snapshot`, `Handle.invalidate`: the two operations. -/

namespace PaneRelay.Terminal

/-- **A guarded handle:** the value while it is live. -/
structure Handle (α : Type) where
  /-- The value, until it is taken away. -/
  value : Option α
deriving DecidableEq, Repr

namespace Handle

variable {α : Type}

/-- A live handle. -/
def ofValue (a : α) : Handle α := ⟨some a⟩

/-- Whether the value is still there. -/
def live (h : Handle α) : Bool := h.value.isSome

/-- The value, while the handle is live. -/
def snapshot (h : Handle α) : Except TerminalError α :=
  match h.value with
  | some a => .ok a
  | none => .error .closed

/-- Takes the value away; only the first call gets it. -/
def invalidate (h : Handle α) : Option α × Handle α := (h.value, ⟨none⟩)

/-- The handle's state in words. -/
def describe (h : Handle α) : String := "GuardedHandle \x7b live: " ++ toString h.live ++ " \x7d"

end Handle

end PaneRelay.Terminal
