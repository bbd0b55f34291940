import PaneRelay.CommandLine

/-! # The program

* `main`: reads the surroundings, runs the command line, and says what came of it. -/

namespace PaneRelay.Program

open PaneRelay.CommandLine PaneRelay.Config

/-- Where the variables of this program are listed. -/
def environmentFile : String := "/proc/self/environ"

/-- The variables in a list in which a zero ends each. -/
def variablesOf (text : String) : Environment :=
  (text.splitOn "\x00").filterMap fun entry =>
    match entry.splitOn "=" with
    | name :: value => if name.isEmpty then none else some (name, String.intercalate "=" value)
    | [] => none

/-- The variables of this program. -/
def environment : IO Environment := do
  try
    let bytes ← IO.FS.readBinFile environmentFile
    return variablesOf ((String.fromUTF8? bytes).getD "")
  catch _ => return []

/-- What is found at a path. -/
def find (path : String) : IO Found := do
  try
    return .file (← IO.FS.readFile path)
  catch e =>
    match e with
    | .noFileOrDirectory .. => return .nothing
    | _ => return .noFile

/-- The port of a hub that may choose one. -/
def chosenPort : Nat := 49152

/-- What a hub says of its port. -/
def bind (port : Nat) : Except String String :=
  .ok (toString (if port = 0 then chosenPort else port))

/-- The program with its arguments. -/
def run (args : List String) : IO Exit := do
  let env ← environment
  let found ← match Flags.parse args with
    | .ok f => find f.file
    | .error _ => pure .nothing
  let world : Daemon.World :=
    { launcher := .ofSurroundings env, shell := env.lookup "SHELL", bind }
  return CommandLine.run world (fun _ => found) env args

end PaneRelay.Program

/-- **The program.** -/
def main (args : List String) : IO UInt32 := do
  let exit ← PaneRelay.Program.run args
  IO.print exit.output
  (← IO.getStdout).flush
  IO.eprint exit.complaint
  return .ofNat exit.code
