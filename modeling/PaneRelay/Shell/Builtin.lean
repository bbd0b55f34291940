import PaneRelay.Shell.Format
import PaneRelay.Shell.Scope

/-! # What the shell does by itself

Commands that neither read nor run anything: they write, set, or test.

* `Effect`: what such a command does.
* `holds?`: the value of a test.
* `builtin?`: the command with a name. -/

namespace PaneRelay.Shell

open PaneRelay.Text

/-- **What a command does:** it writes, complains, and changes the scope. -/
structure Effect where
  /-- What it writes. -/
  out : List Char := []
  /-- Its complaints, a line each. -/
  complaints : List (List Char) := []
  /-- Its status. -/
  status : Nat := 0
  /-- The scope after it. -/
  scope : Scope

/-! ## Tests -/

/-- A truth value as a status. -/
def statusOf (b : Bool) : Nat := if b then 0 else 1

/-- Compares two numbers. -/
def compare? (op : List Char) (a b : Int) : Option Bool :=
  match String.ofList op with
  | "-eq" => some (a = b)
  | "-ne" => some (a ≠ b)
  | "-lt" => some (a < b)
  | "-le" => some (a ≤ b)
  | "-gt" => some (a > b)
  | "-ge" => some (a ≥ b)
  | _ => none

/-- The number in an argument of a test. -/
def testNumber? (s : List Char) : Option Int :=
  let s := (s.dropWhile (· = ' ')).reverse.dropWhile (· = ' ') |>.reverse
  let ten (ds : List Char) : Option Int :=
    if !ds.isEmpty && ds.all Char.isDigit then some (Sum.ofDigits 10 ds) else none
  match s with
  | '-' :: ds => (ten ds).map fun n => -n
  | '+' :: ds => ten ds
  | ds => ten ds

/-- A test of one argument. -/
def unary? (s : Scope) (op a : List Char) : Option Bool :=
  match String.ofList op with
  | "-n" => some (!a.isEmpty)
  | "-z" => some a.isEmpty
  | "-e" => some (a = ['/'] || a = "/dev/null".toList)
  | "-d" => some (a = ['/'])
  | "-f" => some false
  | "-t" => some (s.screen && ((s.streams.lookup (Sum.ofDigits 10 a)).getD none).isSome)
  | _ => none

/-- A test of two arguments. -/
def binary? (a op b : List Char) : Option Bool :=
  match String.ofList op with
  | "=" => some (a = b)
  | "==" => some (a = b)
  | "!=" => some (a ≠ b)
  | _ => do compare? op (← testNumber? a) (← testNumber? b)

/-- **The value of a test;** there is none if it is not well formed. The number bounds how many
parts it has. -/
def holds? (s : Scope) : Nat → List (List Char) → Option Bool
  | 0, _ => none
  | n + 1, l =>
    match l with
    | [] => some false
    | [a] => some (!a.isEmpty)
    | [op, a] => if op = ['!'] then (holds? s n [a]).map not else unary? s op a
    | [a, op, b] =>
      match binary? a op b with
      | some r => some r
      | none =>
        if a = ['!'] then (holds? s n [op, b]).map not
        else if a = ['('] && b = [')'] then holds? s n [op]
        else if op = "-a".toList then some (!a.isEmpty && !b.isEmpty)
        else if op = "-o".toList then some (!a.isEmpty || !b.isEmpty)
        else none
    | l =>
      let cut (op : String) : Option (List (List Char) × List (List Char)) :=
        match l.idxOf? op.toList with
        | some i => if i = 0 then none else some (l.take i, l.drop (i + 1))
        | none => none
      match cut "-o", cut "-a" with
      | some (a, b), _ => do return (← holds? s n a) || (← holds? s n b)
      | none, some (a, b) => do return (← holds? s n a) && (← holds? s n b)
      | none, none => if l.head? = some ['!'] then (holds? s n l.tail).map not else none

/-- The effect of a test. -/
def tested (s : Scope) (args : List (List Char)) : Effect :=
  match holds? s (args.length + 2) args with
  | some b => { scope := s, status := statusOf b }
  | none =>
    { scope := s, status := 2, complaints := ["unexpected operator".toList] }

/-! ## Output -/

/-- Writes its arguments, with escapes. -/
def echoed (s : Scope) (args : List (List Char)) : Effect :=
  let (ending, args) := if args.head? = some "-n".toList then ([], args.tail) else (['\n'], args)
  let text := [' '].intercalate args
  let (text, ended) := Format.unescape (text.length + 1) text
  { scope := s, out := if ended then text else text ++ ending }

/-- Writes its arguments as its first one says. -/
def formatted (s : Scope) (args : List (List Char)) : Effect :=
  match (if args.head? = some "--".toList then args.tail else args) with
  | [] => { scope := s, status := 2, complaints := ["usage: printf format [arg ...]".toList] }
  | f :: args =>
    let r := Format.format f args
    let bad := r.bad.map fun a => a ++ ": expected numeric value".toList
    { scope := s, out := r.text, complaints := bad
      status := if bad.isEmpty && r.good then 0 else 1 }

/-! ## Variables and places -/

/-- Sets variables from arguments with an equals sign. -/
def exported (s : Scope) (args : List (List Char)) : Effect :=
  { scope := args.foldl (fun s a =>
      match a.dropWhile fun c => c ≠ '=' with
      | _ :: v => s.set (a.takeWhile fun c => c ≠ '=') v
      | [] => s) s }

/-- A path from a directory. -/
def pathFrom (dir path : List Char) : List Char :=
  let parts := (if path.head? = some '/' then path else dir ++ '/' :: path).splitOn '/'
  let kept := parts.foldl (fun acc p =>
    if p = [] || p = ['.'] then acc else if p = ['.', '.'] then acc.dropLast else acc ++ [p]) []
  '/' :: ['/'].intercalate kept

/-- Changes the working directory. -/
def moved (s : Scope) (args : List (List Char)) : Effect :=
  let target := args.head?.getD ((s.vars.lookup "HOME".toList).getD ['/'])
  { scope := { s with dir := pathFrom s.dir target } }

/-- Changes the arguments. -/
def arranged (s : Scope) (args : List (List Char)) : Effect :=
  match args with
  | [] => { scope := s }
  | a :: rest =>
    if a = "--".toList then { scope := { s with args := rest } }
    else if a.head? = some '-' || a.head? = some '+' then { scope := s }
    else { scope := { s with args } }

/-- Drops arguments. -/
def shifted (s : Scope) (args : List (List Char)) : Effect :=
  let n := Sum.ofDigits 10 (args.head?.getD ['1'])
  if n ≤ s.args.length then { scope := { s with args := s.args.drop n } }
  else { scope := s, status := 2, complaints := ["can't shift that many".toList] }

/-- Remembers what is run at the end. Signals do not come here. -/
def trapped (s : Scope) (args : List (List Char)) : Effect :=
  match args with
  | action :: names =>
    if names.any fun n => n = "EXIT".toList || n = ['0'] then
      { scope := { s with atExit := if action = ['-'] then [] else action } }
    else { scope := s }
  | [] => { scope := s }

/-- How many loops an argument is about. -/
def loops (args : List (List Char)) : Nat :=
  max 1 (Sum.ofDigits 10 ((args.head?.getD ['1']).filter Char.isDigit))

/-- Leaves loops, if there is one. -/
def leaving (s : Scope) (flow : Flow) : Effect :=
  { scope := if s.depth = 0 then s else { s with flow } }

/-! ## By name -/

/-- **The command with a name.** -/
def builtin? (name : String) (args : List (List Char)) (s : Scope) : Option Effect :=
  match name with
  | ":" => some { scope := s }
  | "true" => some { scope := s }
  | "false" => some { scope := s, status := 1 }
  | "echo" => some (echoed s args)
  | "printf" => some (formatted s args)
  | "test" => some (tested s args)
  | "[" =>
    some (if args.getLast? = some [']'] then tested s args.dropLast
      else { scope := s, status := 2, complaints := ["missing ]".toList] })
  | "export" => some (exported s args)
  | "readonly" => some (exported s args)
  | "unset" => some { scope := { s with vars := s.vars.filter fun e => !args.contains e.1 } }
  | "cd" => some (moved s args)
  | "pwd" => some { scope := s, out := s.dir ++ ['\n'] }
  | "set" => some (arranged s args)
  | "shift" => some (shifted s args)
  | "trap" => some (trapped s args)
  | "wait" => some { scope := s }
  | "umask" => some { scope := s }
  | "break" => some (leaving s (.left (min s.depth (loops args))))
  | "continue" => some (leaving s (.again (min s.depth (loops args))))
  | "return" =>
    some { scope := { s with flow := .returned },
           status :=
             (args.head?.map fun a => Sum.ofDigits 10 (a.filter Char.isDigit) % 256).getD s.status }
  | _ => none

end PaneRelay.Shell
