import PaneRelay.Shell.Sum

/-! # Formatted output in a script

* `unescape`: text in which a backslash starts an escape.
* `Directive`: a place of a format where an argument goes.
* `format`: a format filled with arguments, as often as there are arguments left. -/

namespace PaneRelay.Shell.Format

/-! ## Escapes -/

/-- Whether a character is a digit in base eight. -/
def isOctal (c : Char) : Bool := '0' ≤ c && c ≤ '7'

/-- The octet with a number in base eight. -/
def octet (ds : List Char) : Char := Char.ofNat (Sum.ofDigits 8 ds % 256)

/-- The character that a letter after a backslash stands for. -/
def escape? (c : Char) : Option Char :=
  match c with
  | 'n' => some '\n'
  | 't' => some '\t'
  | 'r' => some '\r'
  | 'a' => some '\x07'
  | 'b' => some '\x08'
  | 'f' => some '\x0c'
  | 'v' => some '\x0b'
  | '\\' => some '\\'
  | _ => none

/-- **Escapes in a format:** the character, and what follows it. -/
def escaped (s : List Char) : List Char × List Char :=
  match s with
  | [] => (['\\'], [])
  | c :: r =>
    match escape? c with
    | some d => ([d], r)
    | none =>
      if c = '"' then (['"'], r)
      else if isOctal c then
        let ds := (s.take 3).takeWhile isOctal
        ([octet ds], s.drop ds.length)
      else (['\\', c], r)

/-- **Text with escapes**, and whether one of them ends all output. Numbers start with a zero. -/
def unescape : Nat → List Char → List Char × Bool
  | 0, _ => ([], false)
  | n + 1, s =>
    match s with
    | [] => ([], false)
    | '\\' :: 'c' :: _ => ([], true)
    | '\\' :: '0' :: s =>
      let ds := (s.take 3).takeWhile isOctal
      let (t, e) := unescape n (s.drop ds.length)
      (octet ds :: t, e)
    | '\\' :: s =>
      let (d, r) := escaped s
      let (t, e) := unescape n r
      (d ++ t, e)
    | c :: s =>
      let (t, e) := unescape n s
      (c :: t, e)

/-! ## Places for arguments -/

/-- **A place for an argument.** -/
structure Directive where
  /-- Marks after the percent sign. -/
  flags : List Char
  /-- The least width. -/
  width : Nat
  /-- The precision. -/
  precision : Option Nat
  /-- What kind of argument it is for. -/
  kind : Char

/-- Text filled up to a width. -/
def Directive.pad (d : Directive) (s : List Char) : List Char :=
  let blank := List.replicate (d.width - s.length) ' '
  if d.flags.contains '-' then s ++ blank else blank ++ s

/-- A number with its sign, filled up with zeros as asked. -/
def Directive.padNumber (d : Directive) (sign ds : List Char) : List Char :=
  let ds := List.replicate (d.precision.getD 0 - ds.length) '0' ++ ds
  let sign :=
    if !sign.isEmpty then sign
    else if d.flags.contains '+' then ['+']
    else if d.flags.contains ' ' then [' ']
    else []
  if d.flags.contains '0' && !d.flags.contains '-' && d.precision.isNone then
    sign ++ List.replicate (d.width - ds.length - sign.length) '0' ++ ds
  else d.pad (sign ++ ds)

/-- The number in an argument; a quote stands before a character. -/
def argument? (s : List Char) : Option Int :=
  match s with
  | [] => some 0
  | '\'' :: c :: _ => some c.toNat
  | '"' :: c :: _ => some c.toNat
  | '-' :: ds => (Sum.number? ds).map fun n => -n
  | '+' :: ds => Sum.number? ds
  | ds => Sum.number? ds

/-- The digits of a number without a sign. -/
def digitsOf (base : Nat) (n : Int) : List Char := Nat.toDigits base (n % 0x10000000000000000).toNat

/-- An argument that is a number, as its place has it. -/
def Directive.number (d : Directive) (n : Int) : List Char :=
  match d.kind with
  | 'x' => d.padNumber [] (digitsOf 16 n)
  | 'X' => d.padNumber [] ((digitsOf 16 n).map Char.toUpper)
  | 'o' => d.padNumber [] (digitsOf 8 n)
  | 'u' => d.padNumber [] (digitsOf 10 n)
  | _ => d.padNumber (if n < 0 then ['-'] else []) (Nat.toDigits 10 n.natAbs)

/-- Reads a place for an argument, after its percent sign. A star takes an argument. -/
def directive? (s : List Char) (args : List (List Char)) :
    Option (Directive × List Char × List (List Char)) :=
  let isFlag (c : Char) : Bool := ['-', '+', ' ', '0', '#'].contains c
  let flags := s.takeWhile isFlag
  let count (s : List Char) (args : List (List Char)) : Nat × List Char × List (List Char) :=
    match s with
    | '*' :: s => (((args.head?.bind argument?).getD 0).toNat, s, args.tail)
    | s => (Sum.ofDigits 10 (s.takeWhile Char.isDigit), s.dropWhile Char.isDigit, args)
  let (width, s, args) := count (s.dropWhile isFlag) args
  let (precision, s, args) : Option Nat × List Char × List (List Char) := match s with
    | '.' :: s => let (p, s, args) := count s args; (some p, s, args)
    | s => (none, s, args)
  match s with
  | kind :: s =>
    if "diouxXcsb".toList.contains kind then some (⟨flags, width, precision, kind⟩, s, args)
    else none
  | [] => none

/-! ## Formats -/

/-- **What formatting gives.** -/
structure Result where
  /-- The text. -/
  text : List Char := []
  /-- Arguments that should be numbers and are not. -/
  bad : List (List Char) := []
  /-- Whether all output ends here. -/
  ended : Bool := false
  /-- Whether an argument was asked for. -/
  took : Bool := false
  /-- The arguments that are left. -/
  rest : List (List Char) := []
  /-- Whether the format is a good one. -/
  good : Bool := true

/-- A format filled once. -/
def fill : Nat → List Char → List (List Char) → Result
  | 0, _, args => { rest := args }
  | n + 1, s, args =>
    match s with
    | [] => { rest := args }
    | '%' :: '%' :: s =>
      let r := fill n s args
      { r with text := '%' :: r.text }
    | '%' :: s =>
      match directive? s args with
      | none => { rest := args, good := false }
      | some (d, s, args) =>
        let arg := args.head?.getD []
        let cut (t : List Char) : List Char := d.pad ((d.precision.map t.take).getD t)
        let (text, bad, ended) : List Char × List (List Char) × Bool :=
          match d.kind with
          | 's' => (cut arg, [], false)
          | 'c' => (d.pad (arg.take 1), [], false)
          | 'b' => let (t, e) := unescape (arg.length + 1) arg; (cut t, [], e)
          | _ =>
            match argument? arg with
            | some x => (d.number x, [], false)
            | none => (d.number 0, [arg], false)
        if ended then { text, ended, took := true, rest := args.tail }
        else
          let r := fill n s args.tail
          { r with text := text ++ r.text, bad := bad ++ r.bad, took := true }
    | '\\' :: s =>
      let (d, s) := escaped s
      let r := fill n s args
      { r with text := d ++ r.text }
    | c :: s =>
      let r := fill n s args
      { r with text := c :: r.text }

/-- **A format filled with arguments** until none is left. -/
def format (s : List Char) (args : List (List Char)) : Result :=
  go (args.length + 1) args
where
  /-- Fills the format while arguments are left; the number bounds how often. -/
  go : Nat → List (List Char) → Result
    | 0, args => { rest := args }
    | n + 1, args =>
      let r := fill (s.length + 1) s args
      if r.rest.isEmpty || !r.took || r.ended || !r.good then r
      else
        let more := go n r.rest
        { more with text := r.text ++ more.text, bad := r.bad ++ more.bad }

end PaneRelay.Shell.Format
