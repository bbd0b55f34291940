import PaneRelay.Child.Basic
import PaneRelay.Shell.Run
import PaneRelay.Terminal.Config
import PaneRelay.Terminal.Failure

/-! # Starting programs

Which programs there are, where they lie, and what the system says when one cannot be started.

* `Place`: what a path leads to.
* `launch`: the program of a pane on pipes.
* `launchOnScreen`: the program of a pane on a screen of its own, which is looked for in another
  way. -/

namespace PaneRelay.Terminal

open PaneRelay.Child PaneRelay.Shell PaneRelay.Text

/-! ## Places -/

/-- **What a path leads to.** -/
inductive Place where
  /-- A directory. -/
  | directory
  /-- A program. -/
  | program
  /-- A file that is no program. -/
  | file
  /-- Nothing. -/
  | nothing
  /-- Nothing, as something on the way is no directory. -/
  | beneathFile
  /-- Nothing, as a name on the way is too long. -/
  | tooLong
deriving DecidableEq, Repr

/-- Directories that are always there. -/
def directories : List String :=
  ["/", "/bin", "/dev", "/etc", "/home", "/lib", "/mnt", "/opt", "/proc", "/root", "/run", "/sbin",
    "/srv", "/sys", "/tmp", "/usr", "/usr/bin", "/usr/lib", "/usr/local", "/usr/local/bin",
    "/usr/sbin", "/usr/share", "/var", "/var/lib", "/var/log", "/var/tmp"]

/-- Files that are always there and are no programs. -/
def plainFiles : List String :=
  ["/dev/full", "/dev/null", "/dev/random", "/dev/tty", "/dev/urandom", "/dev/zero", "/etc/fstab",
    "/etc/group", "/etc/hostname", "/etc/hosts", "/etc/passwd", "/etc/resolv.conf", "/etc/shadow"]

/-- Whether a file is at an absolute path without detours, and if it is a program. -/
def fileAt (path : String) : Option Place :=
  if isProgramPath path.toList then some .program
  else if plainFiles.contains path then some .file
  else none

/-- The absolute path that a path from a directory means. -/
def absolute (dir path : String) : String := String.ofList (pathFrom dir.toList path.toList)

/-- The longest name of a file. -/
def maxName : Nat := 255

/-- The longest path. -/
def maxPath : Nat := 4095

/-- **What a path leads to** from a directory. -/
def placeOf (dir path : String) : Place :=
  let full := absolute dir path
  let parts := full.splitOn "/"
  if path.isEmpty then .nothing
  else if path.utf8ByteSize > maxPath ||
      (path.splitOn "/").any fun p => p.utf8ByteSize > maxName then
    .tooLong
  else if directories.contains full then .directory
  else if (List.range parts.length).any fun n =>
      (fileAt ("/".intercalate (parts.take n))).isSome then .beneathFile
  else
    match fileAt full with
    | some place => if path.endsWith "/" then .beneathFile else place
    | none => .nothing

/-- The failure with a number of the system. -/
def systemError (code : Nat) : IoError := (IoError.ofCode? code).getD IoError.noSuchFile

/-- What the system says when something at a place is to be run. -/
def Place.runError : Place → Option IoError
  | .program => none
  | .directory => some IoError.permissionDenied
  | .file => some IoError.permissionDenied
  | .nothing => some IoError.noSuchFile
  | .beneathFile => some (systemError 20)
  | .tooLong => some (systemError 36)

/-- What the system says when something at a place is to be the working directory. -/
def Place.enterError : Place → Option IoError
  | .directory => none
  | .program => some (systemError 20)
  | .file => some (systemError 20)
  | .nothing => some IoError.noSuchFile
  | .beneathFile => some (systemError 20)
  | .tooLong => some (systemError 36)

/-! ## Surroundings -/

/-- Variables of the surroundings. -/
abbrev Surroundings := List (String × String)

/-- Where programs are looked for when nothing says where. -/
def usualPath : String := "/usr/local/sbin:/usr/local/bin:/usr/sbin:/usr/bin:/sbin:/bin"

/-- The variables that a program starts with; a later one counts. -/
def startingVars (around : Surroundings) (c : TerminalConfig) (more : Surroundings) : Vars :=
  let all := (if c.inheritEnv then around else []) ++ more ++ c.env
  all.foldl (fun v (name, value) => v.set (octets name) (octets value)) []

/-- The value of a variable of a program. -/
def valueIn? (v : Vars) (name : String) : Option String :=
  (v.lookup (octets name)).map asText

/-- The directories in which programs are looked for. -/
def searched (v : Vars) : List String := ((valueIn? v "PATH").getD usualPath).splitOn ":"

/-- Whether some text of a configuration has a zero octet in it, which no system call takes. -/
def hasZero (c : TerminalConfig) : Bool :=
  let texts := c.command :: c.args ++ c.env.flatMap (fun (k, v) => [k, v]) ++ c.workingDir.toList
  texts.any fun t => t.toList.contains '\x00'

/-- The longest argument that the system takes. -/
def maxArgument : Nat := 131071

/-- Whether some argument is longer than that. -/
def isTooLong (c : TerminalConfig) : Bool :=
  (c.command :: c.args).any fun a => a.utf8ByteSize > maxArgument

/-- What a program does, given where it runs and what it starts with. -/
def behaviourOf (c : TerminalConfig) (dir : String) (vars : Vars) (screen : Bool) : Behaviour :=
  let args := c.args.map octets
  let name := octets c.command
  match tool? (String.ofList (baseName name)) args with
  | some b => b
  | none => shell name args vars (octets dir) screen

/-! ## On pipes -/

/-- What a name without a directory leads to, looked for in several directories. -/
def searchedPlace (dirs : List String) (dir name : String) : Place :=
  if name.isEmpty then .nothing
  else if name.utf8ByteSize > maxName then .tooLong
  else
    let places := dirs.map fun d => placeOf dir (d ++ "/" ++ name)
    if places.contains .program then .program
    else if places.contains .file || places.contains .directory then .file
    else .nothing

/-- **The program of a pane on pipes**, or what the system says. -/
def launch (around : Surroundings) (c : TerminalConfig) : Except IoError Behaviour :=
  let vars := startingVars around c []
  let dir := absolute "/" (c.workingDir.getD "/")
  let entered := (c.workingDir.map fun d => placeOf "/" d).getD .directory
  let place :=
    if c.command.contains '/' then placeOf dir c.command
    else searchedPlace (searched vars) dir c.command
  if hasZero c then
    .error { IoError.ofKind .invalidInput with text := "nul byte found in provided data" }
  else
    match entered.enterError, place.runError with
    | some e, _ => .error e
    | none, some e => .error e
    | none, none =>
      if isTooLong c then .error (systemError 7) else .ok (behaviourOf c dir vars false)

/-! ## On a screen -/

/-- The directory of the user, where a program runs whose own directory is missing. -/
def homeDirectory : String := "/root"

/-- Variables that tell a program about its screen. -/
def screenVariables : Surroundings := [("TERM", "xterm-256color"), ("COLORTERM", "truecolor")]

/-- **The program of a pane on a screen of its own**, or what is said when it cannot be started. A
program whose directory is missing runs in the user's. -/
def launchOnScreen (around : Surroundings) (c : TerminalConfig) : Except String Behaviour :=
  let vars := startingVars around c screenVariables
  let dir := match c.workingDir with
    | some d => if placeOf "/" d = .directory then absolute "/" d else homeDirectory
    | none => homeDirectory
  let beside := placeOf dir c.command
  let run (place : Place) : Except String Behaviour :=
    match place.runError with
    | none => .ok (behaviourOf c dir vars true)
    | some e => .error e.text
  if hasZero c then .error "nul byte found in provided data"
  else if c.command.startsWith "/" then
    match beside with
    | .program => run .program
    | .directory => run .directory
    | place =>
      let reason := match place with
        | .file => "EACCES: Permission denied"
        | .beneathFile => "ENOTDIR: Not a directory"
        | .tooLong => "ENAMETOOLONG: File name too long"
        | _ => "ENOENT: No such file or directory"
      .error ("Unable to spawn " ++ c.command ++
        " because it doesn't exist on the filesystem or is not executable (" ++ reason ++ ")")
  else if c.command.isEmpty then run .directory
  else if beside = .program || beside = .file || beside = .directory then run beside
  else if (valueIn? vars "PATH").isSome &&
      searchedPlace (searched vars) dir c.command = .program then
    run .program
  else
    .error ("Unable to spawn " ++ c.command ++
      " because it doesn't exist on the filesystem and was not found in PATH")

end PaneRelay.Terminal
