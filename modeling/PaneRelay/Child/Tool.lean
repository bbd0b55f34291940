import PaneRelay.Child.Behaviour
import PaneRelay.Text.Octets

/-! # Small programs

Programs that do one thing each. Their arguments are octets.

* `copier`: copies its input to its output.
* `sleeper`: sleeps.
* `screenTool`: says how large the screen is.
* `tool?`: the program with a name. -/

namespace PaneRelay.Child

open PaneRelay.Text

/-- Complains, and ends with a status. -/
def failing (status : Nat) (text : String) : Behaviour :=
  .put .complaint text.toUTF8 fun _ => .ends status

/-- An argument in a message. -/
def asText (l : List Char) : String := (String.fromUTF8? (bytesOf l)).getD (String.ofList l)

/-! ## Copying -/

/-- Copies bytes until its input ends. The number bounds them. -/
def copying : Nat → (Unit → Behaviour) → Behaviour
  | 0, k => k ()
  | n + 1, k => .reads fun x =>
    match x with
    | none => k ()
    | some b => .writes .output [b].toByteArray fun _ => copying n k

/-- How many bytes are copied at most: more than any input has. -/
def copyBound : Nat := 0x1000000000000000

/-- Copies each of several inputs; a dash stands for the program's own. -/
def copyEach (status : Nat) : List (List Char) → Behaviour
  | [] => .ends status
  | name :: names =>
    if name = ['-'] then copying copyBound fun _ => copyEach status names
    else if name = "/dev/null".toList then copyEach status names
    else
      .put .complaint ("cat: " ++ asText name ++ ": No such file or directory\n").toUTF8 fun _ =>
        copyEach 1 names

/-- **Copies its inputs** to its output. -/
def copier (args : List (List Char)) : Behaviour :=
  let names := args.filter fun a => a ≠ "-u".toList
  copyEach 0 (if names.isEmpty then [['-']] else names)

/-! ## Sleeping -/

/-- A length of time, in milliseconds: a decimal number, perhaps with a unit. -/
def duration? (arg : List Char) : Option Nat :=
  let whole := arg.takeWhile Char.isDigit
  let rest := arg.dropWhile Char.isDigit
  let (fraction, rest) := match rest with
    | '.' :: r => (r.takeWhile Char.isDigit, r.dropWhile Char.isDigit)
    | r => ([], r)
  let unit? : Option Nat := match rest with
    | [] => some 1
    | ['s'] => some 1
    | ['m'] => some 60
    | ['h'] => some 3600
    | ['d'] => some 86400
    | _ => none
  let number (ds : List Char) : Nat := ds.foldl (fun n d => 10 * n + (d.toNat - 48)) 0
  if whole.isEmpty && fraction.isEmpty then none
  else unit?.map fun unit =>
    (number whole * 1000 + number ((fraction ++ ['0', '0', '0']).take 3)) * unit

/-- **Sleeps** for the sum of its arguments. -/
def sleeper (args : List (List Char)) : Behaviour :=
  match args with
  | [] => failing 1 "sleep: missing operand\nTry 'sleep --help' for more information.\n"
  | args =>
    match args.find? fun a => (duration? a).isNone with
    | some bad =>
      failing 1 ("sleep: invalid time interval '" ++ asText bad ++
        "'\nTry 'sleep --help' for more information.\n")
    | none => .sleeps ((args.filterMap duration?).foldl (· + ·) 0) fun _ => .done

/-! ## The screen -/

/-- **Says how large the screen is:** rows, then columns. -/
def screenTool (args : List (List Char)) : Behaviour :=
  .asks fun size =>
    match size with
    | none => failing 1 "stty: 'standard input': Inappropriate ioctl for device\n"
    | some (cols, rows) =>
      if args = ["size".toList] then
        .put .output (toString rows ++ " " ++ toString cols ++ "\n").toUTF8 fun _ => .done
      else .done

/-! ## By name -/

/-- The names of all programs. -/
def toolNames : List String := ["sh", "cat", "true", "false", "sleep", "stty"]

/-- **The program with a name**, the shell apart. -/
def tool? (name : String) (args : List (List Char)) : Option Behaviour :=
  if name = "cat" then some (copier args)
  else if name = "true" then some .done
  else if name = "false" then some (.ends 1)
  else if name = "sleep" then some (sleeper args)
  else if name = "stty" then some (screenTool args)
  else none

end PaneRelay.Child
