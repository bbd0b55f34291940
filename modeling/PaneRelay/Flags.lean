import PaneRelay.Config.Daemon

/-! # Command-line flags

Flags are read from left to right. An option without its value in the same word takes the next word,
and only when something comes after that, or the line ends, is its value looked at. All that follows
two dashes is the command of the panes.

* `Flags`: what was given.
* `parse`: reads a command line.
* `Flags.apply`: flags over a configuration. -/

namespace PaneRelay

open PaneRelay.Config PaneRelay.Terminal

/-- **What was given on the command line.** -/
structure Flags where
  /-- The configuration file. -/
  config : Option String := none
  /-- How many panes. -/
  panes : Option UInt64 := none
  /-- The port of the hub. -/
  port : Option UInt16 := none
  /-- Which kind of terminal. -/
  backend : Option Preference := none
  /-- Whether debug output is wanted. -/
  debug : Bool := false
  /-- The command of the panes. -/
  command : List String := []
deriving DecidableEq, Repr

namespace Flags

/-- **Why a command line is not accepted.** -/
inductive Stop where
  /-- There is no such flag, or a word stands where none may. -/
  | unknownArgument
  /-- A value is missing or not among those possible. -/
  | invalidValue
  /-- A value is not of the right form. -/
  | valueValidation
  /-- An option was given twice. -/
  | argumentConflict
  /-- A flag that takes no value has one. -/
  | tooManyValues
  /-- The help text was asked for, in its long form or in the short one. -/
  | displayHelp (long : Bool)
deriving DecidableEq, Repr

/-- **Options that take a value.** -/
inductive Opt where
  /-- The configuration file. -/
  | config
  /-- How many panes. -/
  | panes
  /-- The port of the hub. -/
  | port
  /-- Which kind of terminal. -/
  | backend
deriving DecidableEq, Repr

/-- **What a flag asks for.** -/
inductive Flag where
  /-- An option with a value. -/
  | option (o : Opt)
  /-- Debug output. -/
  | debug
  /-- The help text, in its long form or in the short one. -/
  | help (long : Bool)
deriving DecidableEq, Repr

/-- The flag with a long name. -/
def Flag.ofLong? (name : String) : Option Flag :=
  if name = "config" then some (.option .config)
  else if name = "panes" then some (.option .panes)
  else if name = "port" then some (.option .port)
  else if name = "backend" then some (.option .backend)
  else if name = "debug" then some .debug
  else if name = "help" then some (.help true)
  else none

/-- The flag with a letter. -/
def Flag.ofLetter? (c : Char) : Option Flag :=
  if c = 'c' then some (.option .config)
  else if c = 'n' then some (.option .panes)
  else if c = 'p' then some (.option .port)
  else if c = 'd' then some .debug
  else if c = 'h' then some (.help false)
  else none

/-! ## Values -/

/-- A whole number in at most `bits` bits, perhaps with a plus before it. -/
def number? (bits : Nat) (s : List Char) : Option Nat :=
  let ds := match s with
    | '+' :: r => r
    | r => r
  (Environment.decimal? ds).bind fun n => if n < Nat.pow 2 bits then some n else none

/-- A port; a zero may have a minus. -/
def port? (s : List Char) : Option Nat :=
  match s with
  | '-' :: r => (Environment.decimal? r).bind fun n => if n = 0 then some 0 else none
  | s => number? 16 s

/-- Whether an option was given before. -/
def has (f : Flags) : Opt → Bool
  | .config => f.config.isSome
  | .panes => f.panes.isSome
  | .port => f.port.isSome
  | .backend => f.backend.isSome

/-- **Sets an option**, once. -/
def set (f : Flags) (o : Opt) (value : String) : Except Stop Flags :=
  if f.has o then .error .argumentConflict
  else
    match o with
    | .config => if value.isEmpty then .error .invalidValue else .ok { f with config := some value }
    | .panes =>
      match number? 64 value.toList with
      | some n => .ok { f with panes := some (.ofNat n) }
      | none => .error .valueValidation
    | .port =>
      match port? value.toList with
      | some n => .ok { f with port := some (.ofNat n) }
      | none => .error .valueValidation
    | .backend =>
      match Preference.ofWord? value with
      | some b => .ok { f with backend := some b }
      | none => .error .invalidValue

/-! ## Words -/

/-- **What has been read:** flags, and an option whose value was not looked at yet. -/
structure Reading where
  /-- The flags so far. -/
  flags : Flags := {}
  /-- The option, and its value if that has come. -/
  pending : Option (Opt × Option String) := none

namespace Reading

/-- Looks at the value of the option that waits for it. -/
def resolve (r : Reading) : Except Stop Reading :=
  match r.pending with
  | none => .ok r
  | some (_, none) => .error .invalidValue
  | some (o, some value) => (r.flags.set o value).map fun flags => { flags, pending := none }

/-- An option, with its value if that is in the same word. -/
def option (r : Reading) (o : Opt) (value : Option String) : Except Stop Reading := do
  let r ← r.resolve
  match value with
  | some v => return { flags := ← r.flags.set o v }
  | none => return { r with pending := some (o, none) }

/-- A flag without a value. -/
def plain (r : Reading) (f : Flag) : Except Stop Reading := do
  let r ← r.resolve
  match f with
  | .help long => throw (.displayHelp long)
  | .debug =>
    if r.flags.debug then throw .argumentConflict
    return { r with flags := { r.flags with debug := true } }
  | .option _ => return r

/-- A word of letters after one dash. The value of an option may follow its letter. -/
def letters (r : Reading) : List Char → Except Stop Reading
  | [] => .ok r
  | c :: cs =>
    match Flag.ofLetter? c with
    | none => .error .unknownArgument
    | some (.option o) =>
      match cs with
      | [] => r.option o none
      | '=' :: v => r.option o (some (String.ofList v))
      | v => r.option o (some (String.ofList v))
    | some f =>
      match r.plain f with
      | .ok r => letters r cs
      | .error e => .error e

/-- A word after two dashes, with its value if there is an equals sign in it. -/
def long (r : Reading) (name : String) (value : Option String) : Except Stop Reading :=
  match Flag.ofLong? name, value with
  | none, _ => .error .unknownArgument
  | some (.option o), v => r.option o v
  | some _, some _ => .error .tooManyValues
  | some f, none => r.plain f

/-- Splits a word at its first equals sign. -/
def splitValue (s : List Char) : String × Option String :=
  let name := s.takeWhile fun c => c ≠ '='
  match s.dropWhile fun c => c ≠ '=' with
  | [] => (String.ofList name, none)
  | _ :: v => (String.ofList name, some (String.ofList v))

/-- **One word** before the two dashes that end the flags. -/
def word (r : Reading) (w : String) : Except Stop Reading :=
  let other : Except Stop Reading :=
    match r.pending with
    | some (o, none) => .ok { r with pending := some (o, some w) }
    | _ => .error .unknownArgument
  match w.toList with
  | '-' :: '-' :: cs =>
    let (name, value) := splitValue cs
    r.long name value
  | ['-'] => other
  | '-' :: cs => r.letters cs
  | _ => other

/-- All words. -/
def words (r : Reading) : List String → Except Stop Reading
  | [] => r.resolve
  | w :: ws =>
    if w = "--" then do
      let r ← r.resolve
      return { r with flags := { r.flags with command := ws } }
    else
      match r.word w with
      | .ok r => words r ws
      | .error e => .error e

end Reading

/-- **Reads a command line.** -/
def parse (args : List String) : Except Stop Flags := do
  return (← Reading.words {} args).flags

/-- The configuration file that is read when none is named. -/
def usualFile : String := "panemux.toml"

/-- The configuration file. -/
def file (f : Flags) : String := f.config.getD usualFile

/-! ## Over a configuration -/

/-- **Flags over a configuration.** A command that is given replaces the arguments too. -/
def apply (f : Flags) (c : DaemonConfig) : DaemonConfig :=
  let p := c.panes
  let p := { p with count := f.panes.getD p.count, backend := f.backend.getD p.backend }
  let p := match f.command with
    | [] => p
    | command :: args => { p with command := some command, args }
  let hub := { c.stream.hub with port := f.port.getD c.stream.hub.port }
  { panes := p, stream := { c.stream with hub } }

end Flags

end PaneRelay
