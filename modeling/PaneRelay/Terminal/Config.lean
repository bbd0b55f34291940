/-! # What a terminal runs

* `Preference`: which kind of terminal is wanted.
* `TerminalConfig`: the program, its surroundings and its screen.
* `defaultShell`: the program that runs when none is named. -/

namespace PaneRelay.Terminal

/-- **Which kind of terminal is wanted.** -/
inductive Preference where
  /-- A native one, or pipes if that fails. -/
  | auto
  /-- A native one. -/
  | native
  /-- Pipes. -/
  | pipes
deriving DecidableEq, Repr, Inhabited

/-- The words for the kinds. -/
def Preference.words : List String := ["auto", "native", "pipes"]

/-- The word for a kind. -/
def Preference.word : Preference → String
  | .auto => "auto"
  | .native => "native"
  | .pipes => "pipes"

/-- The kind with an index among the words. -/
def Preference.ofIndex : Nat → Preference
  | 0 => .auto
  | 1 => .native
  | _ => .pipes

/-- The kind that a word names. -/
def Preference.ofWord? (s : String) : Option Preference :=
  (Preference.words.idxOf? s).map Preference.ofIndex

/-- The shell that is always there. -/
def fallbackShell : String := "/bin/sh"

/-- **The program that runs when none is named:** the shell that the surroundings name, if they name
one. -/
def defaultShell (shell : Option String) : String :=
  match shell with
  | some s => if s.isEmpty then fallbackShell else s
  | none => fallbackShell

/-- **What a terminal runs.** -/
structure TerminalConfig where
  /-- The program. -/
  command : String
  /-- Its arguments. -/
  args : List String := []
  /-- Whether it sees the variables of its surroundings. -/
  inheritEnv : Bool := true
  /-- Variables set for it; a later one counts. -/
  env : List (String × String) := []
  /-- Where it runs, if not where the daemon does. -/
  workingDir : Option String := none
  /-- The width of its screen. -/
  cols : Nat := 80
  /-- The height of its screen. -/
  rows : Nat := 24
  /-- Which kind of terminal is wanted. -/
  preference : Preference := .auto
  /-- How long it has to end when it is closed, in milliseconds. -/
  closeGrace : Nat := 500
  /-- How long its end is waited for after that, in milliseconds. -/
  closeConfirm : Nat := 200
deriving DecidableEq, Repr

end PaneRelay.Terminal
