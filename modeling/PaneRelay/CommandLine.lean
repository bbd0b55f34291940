import PaneRelay.Daemon
import PaneRelay.Flags
import PaneRelay.Flags.Help

/-! # The command line

The daemon as a program: flags and a configuration go in, texts and a status come out.

* `Found`: what is found at the path of a configuration file.
* `complaint`: a trouble as it is told on the error stream.
* `run`: the program. -/

namespace PaneRelay.CommandLine

open PaneRelay.Config PaneRelay.Daemon

/-- **What is found at a path.** -/
inductive Found where
  /-- Nothing. -/
  | nothing
  /-- Something that is no file. -/
  | noFile
  /-- A file with a text. -/
  | file (text : String)
deriving DecidableEq, Repr

/-- A path without detours. -/
def plainPath (path : String) : List String :=
  (path.splitOn "/").filter fun p => p ≠ "" && p ≠ "."

/-- What is found at a path from a directory that holds files. -/
def findIn (files : List (String × String)) (path : String) : Found :=
  let wanted := plainPath path
  match files.find? fun (name, _) => plainPath name = wanted with
  | some (_, text) => if path.endsWith "/" then .nothing else .file text
  | none =>
    if !path.startsWith "/" && files.any fun (name, _) => wanted.isPrefixOf (plainPath name) then
      .noFile
    else if path.isEmpty then .nothing
    else if wanted.isEmpty then .noFile
    else .nothing

/-- **What came of the program:** what it said, what it complained, and its status. -/
structure Exit where
  /-- The status. -/
  code : Nat
  /-- What it said. -/
  output : String := ""
  /-- What it complained. -/
  complaint : String := ""
  /-- Whether it goes on. -/
  running : Bool := false
deriving DecidableEq, Repr

/-! ## Complaints -/

/-- A cause in the list of causes, each of whose lines is moved to the right. -/
def indented (number : Option Nat) (text : String) : String :=
  match number with
  | some n => "    " ++ toString n ++ ": " ++ String.intercalate "\n       " (text.splitOn "\n")
  | none => "    " ++ String.intercalate "\n    " (text.splitOn "\n")

/-- **A trouble as it is told:** the outermost context, then the causes, numbered if there are
several. -/
def complaint (t : Trouble) : String :=
  match t.all with
  | [] => "Error: \n"
  | [only] => "Error: " ++ only ++ "\n"
  | [outer, cause] => "Error: " ++ outer ++ "\n\nCaused by:\n" ++ indented none cause ++ "\n"
  | outer :: causes =>
    "Error: " ++ outer ++ "\n\nCaused by:\n" ++
      String.join (causes.zipIdx.map fun (c, i) => indented (some i) c ++ "\n")

/-- Where a refused setting stands, and in which source. -/
def whereabouts (path : String) (f : Rejection) (fromEnv : Bool) : String :=
  let key := String.intercalate "."
    (if fromEnv then f.path.map String.toUpper else "default" :: f.path)
  let source :=
    if fromEnv then "`PANEMUX_` environment variable(s)"
    else String.intercalate "/" (plainPath path) ++ " TOML file"
  " for key " ++ Text.quoted key ++ " in " ++ source

/-- The trouble with a configuration. -/
def loadTrouble (path : String) (e : LoadError) : Trouble :=
  let cause := match e with
    | .notToml => "TOML parse error in " ++ String.intercalate "/" (plainPath path) ++ " TOML file"
    | .refused f fromEnv => f.refusal.message ++ whereabouts path f fromEnv
  { contexts := ["invalid configuration (" ++ path ++ ")"], cause }

/-- What is said of flags that are not accepted. -/
def flagsComplaint (e : Flags.Stop) : String :=
  let reason := match e with
    | .unknownArgument => "unexpected argument found"
    | .invalidValue => "invalid or missing value for an option"
    | .valueValidation => "value of an option is not a number in its range"
    | .argumentConflict => "an option was given twice"
    | .tooManyValues => "unexpected value for a flag"
    | .displayHelp _ => "help"
  "error: " ++ reason ++ "\n\n" ++ String.intercalate "\n" (Flags.helpHead.drop 2) ++
    "\nFor more information, try '--help'.\n"

/-! ## The program -/

/-- The program once its flags are read. -/
def runFlags (w : World) (find : String → Found) (env : Environment) (f : Flags) : Exit :=
  let found := find f.file
  if f.config.isSome && found = .nothing then
    { code := 1, complaint := complaint { cause := "config file " ++ f.file ++ " does not exist" } }
  else
    let text := match found with
      | .file text => some text
      | _ => none
    match Config.load text env with
    | .error e => { code := 1, complaint := complaint (loadTrouble f.file e) }
    | .ok c =>
      let o := Daemon.run w (f.apply c)
      match o.ending with
      | .done => { code := 0, output := o.output }
      | .failed t => { code := 1, output := o.output, complaint := complaint t }
      | .running => { code := 0, output := o.output, running := true }

/-- **The program**, given what is found at paths and the variables of its surroundings. -/
def run (w : World) (find : String → Found) (env : Environment) (args : List String) : Exit :=
  match Flags.parse args with
  | .ok f => runFlags w find env f
  | .error (.displayHelp long) =>
    { code := 0, output := if long then Flags.longHelp else Flags.shortHelp }
  | .error e => { code := 2, complaint := flagsComplaint e }

end PaneRelay.CommandLine
