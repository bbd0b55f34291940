import PaneRelay.Config.Environment
import PaneRelay.Config.Extract
import PaneRelay.Config.Views
import PaneRelay.Terminal.Config
import PaneRelay.Toml.Document

/-! # The daemon's configuration

Three layers: defaults, a TOML file over them, and environment variables over that. A key that one
layer leaves out is what the layers below make it.

* `PanesSection`, `DaemonConfig`: the values.
* `DaemonConfig.ofSetting`: a configuration out of a tree of settings.
* `load`: the layers together.
* `DaemonConfig.terminal`: what every pane runs. -/

namespace PaneRelay.Config

open PaneRelay.Terminal (Preference TerminalConfig defaultShell)

/-- **The panes.** -/
structure PanesSection where
  /-- How many there are. -/
  count : UInt64 := 1
  /-- The program in each; the shell if there is none. -/
  command : Option String := none
  /-- Its arguments. -/
  args : List String := []
  /-- Where it runs. -/
  workingDir : Option String := none
  /-- The width of the screen. -/
  cols : UInt16 := 80
  /-- The height of the screen. -/
  rows : UInt16 := 24
  /-- Which kind of terminal is wanted. -/
  backend : Preference := .auto
  /-- Kilobytes of output that are kept for a late consumer, per pane. -/
  replayKb : UInt64 := 64
deriving DecidableEq, Repr, Inhabited

/-- **The daemon's configuration.** -/
structure DaemonConfig where
  /-- The panes. -/
  panes : PanesSection := {}
  /-- Streaming. -/
  stream : StreamConfig := {}
deriving DecidableEq, Repr, Inhabited

/-! ## Sections out of settings -/

/-- The fields of the panes, in order. -/
def PanesSection.fields : List (String × Field) :=
  [("count", .word .size), ("command", .text "a string"), ("args", .texts),
    ("working_dir", .text "path string"), ("cols", .word .bits16), ("rows", .word .bits16),
    ("backend", .choice "enum BackendChoice" Preference.words), ("replay_kb", .word .size)]

/-- Sets one field of the panes. -/
def PanesSection.set (p : PanesSection) (k : String) (c : Content) : PanesSection :=
  match k, c with
  | "count", .word n => { p with count := .ofNat n }
  | "command", .text s => { p with command := some s }
  | "args", .texts l => { p with args := l }
  | "working_dir", .text s => { p with workingDir := some s }
  | "cols", .word n => { p with cols := .ofNat n }
  | "rows", .word n => { p with rows := .ofNat n }
  | "backend", .choice i => { p with backend := .ofIndex i }
  | "replay_kb", .word n => { p with replayKb := .ofNat n }
  | _, _ => p

/-- The panes out of a setting. -/
def PanesSection.ofSetting (v : Setting) : Except Rejection PanesSection := do
  let contents ← extract "PanesFileConfig" PanesSection.fields v
  return contents.foldl (fun p (k, c) => p.set k c) {}

/-- A section's row out of a setting; what is missing has its default. -/
def Table.rowOfSetting (t : Table) (v : Setting) : Except Rejection (List Nat) := do
  let contents ← extract t.name (t.fields.map fun (k, w) => (k, .word w)) v
  return (t.fields.zip t.defaults).map fun ((k, _), n) =>
    match contents.lookup k with
    | some (.word m) => m
    | _ => n

/-- One section of a tree, or its default if the tree has none. -/
def sectionOf (v : Setting) (k : String) (read : Setting → Except Rejection α) (dflt : α) :
    Except Rejection α :=
  match v.child? k with
  | none => .ok dflt
  | some u => (read u).mapError (Rejection.under k)

/-- **A configuration out of a tree of settings**, whose sections are gone through in the order of
their names. -/
def DaemonConfig.ofSetting (v : Setting) : Except Rejection DaemonConfig := do
  let batch ← sectionOf v "batch" (fun u => .ofRow <$> BatchSection.table.rowOfSetting u) {}
  let hub ← sectionOf v "hub" (fun u => .ofRow <$> HubSection.table.rowOfSetting u) {}
  let panes ← sectionOf v "panes" PanesSection.ofSetting {}
  let supervisor ←
    sectionOf v "supervisor" (fun u => .ofRow <$> SupervisorSection.table.rowOfSetting u) {}
  return { panes, stream := { batch, hub, supervisor } }

/-! ## Layers -/

/-- **Why there is no configuration.** -/
inductive LoadError where
  /-- The file is no TOML document. -/
  | notToml
  /-- A setting is refused; `fromEnv` says that it came from a variable. -/
  | refused (f : Rejection) (fromEnv : Bool)

/-- The settings of a file, or none if there is no file. -/
def fileSetting (toml : Option String) : Option Setting :=
  match toml with
  | none => some (.table [])
  | some text => Toml.parse text

/-- **Loads a configuration** from a file, if there is one, and variables. -/
def load (toml : Option String) (env : Environment) : Except LoadError DaemonConfig :=
  match fileSetting toml with
  | none => .error .notToml
  | some file =>
    let vars := env.setting
    match DaemonConfig.ofSetting (vars.laidOn file) with
    | .ok c => .ok c
    | .error f => .error (.refused f (vars.at? f.path).isSome)

/-! ## What panes run -/

/-- The bytes of history kept per pane, in at most 64 bits. -/
def PanesSection.replayBytes (p : PanesSection) : Nat :=
  min (p.replayKb.toNat * 1024) 0xffffffffffffffff

/-- **What every pane runs**, where the surroundings name a shell or not. -/
def PanesSection.terminal (p : PanesSection) (shell : Option String) : TerminalConfig :=
  { command := p.command.getD (defaultShell shell)
    args := p.args
    workingDir := p.workingDir
    cols := p.cols.toNat
    rows := p.rows.toNat
    preference := p.backend }

end PaneRelay.Config
