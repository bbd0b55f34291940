import PaneRelay.Child.Tool
import PaneRelay.Shell.Field
import PaneRelay.Shell.Script
import PaneRelay.Shell.Sum

/-! # What a script can see

* `Scope`: variables, arguments, streams and where the script stands.
* `Scope.atomsOf`: what the value of a variable becomes in a word.
* `Scope.say`: output of the script itself. -/

namespace PaneRelay.Shell

open PaneRelay.Child PaneRelay.Text

/-- **Whether the commands that come next are run.** -/
inductive Flow where
  /-- They are. -/
  | on
  /-- So many loops are left first. -/
  | left (loops : Nat)
  /-- So many loops are left first, the last of which goes on. -/
  | again (loops : Nat)
  /-- The function or the script is left first. -/
  | returned
deriving DecidableEq

/-- **What a script can see** and change. -/
structure Scope where
  /-- What the shell is called. -/
  name : List Char
  /-- The arguments. -/
  args : List (List Char) := []
  /-- The variables. -/
  vars : Vars := []
  /-- The status of the last command. -/
  status : Nat := 0
  /-- The status of the last command whose output became text. -/
  captured : Option Nat := none
  /-- The streams by number; one of them may lead nowhere. -/
  streams : List (Nat × Option Stream) :=
    [(0, some .input), (1, some .output), (2, some .complaint)]
  /-- Whether the next commands are run. -/
  flow : Flow := .on
  /-- How many loops the next command is in. -/
  depth : Nat := 0
  /-- The commands that have names of their own. -/
  functions : List (List Char × Command) := []
  /-- What is run at the end. -/
  atExit : List Char := []
  /-- Whether the streams lead to a screen. -/
  screen : Bool := false
  /-- The working directory. -/
  dir : List Char := ['/']

namespace Scope

/-- The characters that split words. -/
def ifs (s : Scope) : List Char := (s.vars.lookup "IFS".toList).getD [' ', '\t', '\n']

/-- The value of a variable, or of a special name. -/
def value? (s : Scope) (name : List Char) : Option (List Char) :=
  match name with
  | ['#'] => some (toString s.args.length).toList
  | ['?'] => some (toString s.status).toList
  | ['$'] => some ['1']
  | ['-'] => some []
  | ['!'] => none
  | ['0'] => some s.name
  | ['@'] => if s.args.isEmpty then none else some ([' '].intercalate s.args)
  | ['*'] => if s.args.isEmpty then none else some ((s.ifs.take 1).intercalate s.args)
  | c :: _ =>
    if c.isDigit then s.args[Sum.ofDigits 10 name - 1]?
    else s.vars.lookup name
  | [] => none

/-- **What the value of a variable becomes** in a word. -/
def atomsOf (s : Scope) (name : List Char) (quoted : Bool) : List Atom :=
  let origin : Origin := if quoted then .quoted else .value
  if name = ['@'] || (name = ['*'] && !quoted) then
    [Atom.edge].intercalate (s.args.map fun a => Atom.ofText a origin)
  else Atom.ofText ((s.value? name).getD []) origin

/-- Sets a variable. -/
def set (s : Scope) (name value : List Char) : Scope := { s with vars := s.vars.set name value }

/-- Sets several variables. -/
def setAll (s : Scope) (l : List (List Char × List Char)) : Scope :=
  l.foldl (fun s (name, value) => s.set name value) s

/-- Gives variables back the values they have in another scope. -/
def restore (s : Scope) (names : List (List Char)) (from_ : Scope) : Scope :=
  names.foldl (fun s name =>
    match from_.vars.lookup name with
    | some v => s.set name v
    | none => { s with vars := s.vars.filter fun e => e.1 ≠ name }) s

/-- The same scope after a command with a status. -/
def ended (s : Scope) (status : Nat) : Scope := { s with status }

/-- Where a stream of a program leads. -/
def leads (s : Scope) : Stream → Option Stream
  | .input => (s.streams.lookup 0).getD none
  | .output => (s.streams.lookup 1).getD none
  | .complaint => (s.streams.lookup 2).getD none

/-- Whether a stream is held open. -/
def holds (s : Scope) (t : Stream) : Bool := s.streams.any fun e => e.2 = some t

/-- Gives up the streams that are not held, then goes on. -/
def release (s : Scope) (next : Unit → Behaviour) : Behaviour :=
  let lost := [Stream.input, .output, .complaint].filter fun t => !s.holds t
  lost.foldr (fun t (k : Unit → Behaviour) => fun _ => .closes t k) next ()

/-- **Output of the script itself.** -/
def say (s : Scope) (t : Stream) (text : List Char) (k : Scope → Behaviour) : Behaviour :=
  match s.leads t with
  | some u => .put u (bytesOf text) fun _ => k s
  | none => k s

/-- A complaint of the shell, and the status after it. -/
def complain (s : Scope) (text : List Char) (status : Nat) (k : Scope → Behaviour) : Behaviour :=
  s.say .complaint (s.name ++ ": 1: ".toList ++ text ++ ['\n']) fun s => k (s.ended status)

end Scope

end PaneRelay.Shell
