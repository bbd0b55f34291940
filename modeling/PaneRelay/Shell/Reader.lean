import PaneRelay.Shell.Script
import PaneRelay.Shell.Sum

/-! # Reading scripts

A script is read from left to right, without looking back. Every reader takes a number that bounds
how deep readers call each other; the length of the script bounds that, too.

* `Reader`: takes something off the front of a script.
* `word`, `command`, `commands`: the readers.
* `read?`: reads a whole script. -/

namespace PaneRelay.Shell

/-- **A reader** takes something off the front of a script, or fails. -/
abbrev Reader := StateT (List Char) Option

namespace Reader

/-- What is left of the script. -/
def rest : Reader (List Char) := get

/-- Drops characters. -/
def skip (n : Nat) : Reader Unit := modify (List.drop n)

/-- Drops a text if the script goes on with it, and says whether it does. -/
def took (s : String) : Reader Bool := do
  if s.toList.isPrefixOf (← get) then
    skip s.length
    return true
  return false

/-- Drops a text with which the script has to go on. -/
def want (s : String) : Reader Unit := do
  if ← took s then return else failure

/-- The characters at the front that pass a test. -/
def span (test : Char → Bool) : Reader (List Char) := do
  let s ← get
  set (s.dropWhile test)
  return s.takeWhile test

/-! ## Between words -/

/-- A script without the blanks at its front: spaces, lines that go on, and remarks. -/
def withoutBlanks : Nat → List Char → List Char
  | 0, s => s
  | n + 1, s =>
    match s with
    | '\\' :: '\n' :: s => withoutBlanks n s
    | '#' :: s => withoutBlanks n (s.dropWhile fun c => c ≠ '\n')
    | c :: s => if c = ' ' || c = '\t' then withoutBlanks n s else c :: s
    | [] => []

/-- Drops blanks. -/
def blanks : Reader Unit := modify fun s => withoutBlanks s.length s

/-- A script without the blanks and the ends of lines at its front. -/
def withoutLines : Nat → List Char → List Char
  | 0, s => s
  | n + 1, s =>
    match withoutBlanks s.length s with
    | '\n' :: s => withoutLines n s
    | s => s

/-- Drops blanks and ends of lines. -/
def lines : Reader Unit := modify fun s => withoutLines s.length s

/-- Whether a character ends a word. -/
def endsWord (c : Char) : Bool := " \t\n;&|<>()".toList.contains c

/-- Whether a character stands for itself in a word. -/
def isPlain (c : Char) : Bool := !endsWord c && !"'\"\\$\x60".toList.contains c

/-- Whether a character stands for itself between double quotes. -/
def isPlainQuoted (c : Char) : Bool := !"\"\\$\x60".toList.contains c

/-- The plain word at the front, which may be a reserved one. -/
def ahead : Reader (List Char) := do return (← get).takeWhile fun c => !endsWord c

/-- Whether a reserved word is at the front. -/
def isAhead (w : String) : Reader Bool := do return (← ahead) = w.toList

/-- Words that end a list of commands. -/
def closers : List String := ["then", "else", "elif", "fi", "do", "done", "esac", "\x7d"]

/-- Whether a list of commands ends here. -/
def atClose : Reader Bool := do
  let s ← get
  let w ← ahead
  return s.isEmpty || s.head? = some ')' || [';', ';'].isPrefixOf s ||
    closers.any fun c => w = c.toList

/-- Drops a reserved word that has to come next. -/
def reserved (w : String) : Reader Unit := do
  lines
  if ← isAhead w then skip w.length else failure

/-- The text up to two brackets that close a sum. `depth` counts brackets that are open. -/
def sumText : Nat → Nat → List Char → Option (List Char × List Char)
  | 0, _, _ => none
  | n + 1, depth, s =>
    match s with
    | [] => none
    | ')' :: s =>
      match depth with
      | 0 =>
        match s with
        | ')' :: s => some ([], s)
        | _ => none
      | d + 1 => (sumText n d s).map fun (t, r) => (')' :: t, r)
    | '(' :: s => (sumText n (depth + 1) s).map fun (t, r) => ('(' :: t, r)
    | c :: s => (sumText n depth s).map fun (t, r) => (c :: t, r)

/-- The text up to a backquote. -/
def backquoted : Nat → List Char → Option (List Char × List Char)
  | 0, _ => none
  | n + 1, s =>
    match s with
    | [] => none
    | '\x60' :: s => some ([], s)
    | '\\' :: c :: s =>
      (backquoted n s).map fun (t, r) =>
        (if c = '\x60' || c = '\\' || c = '$' then c :: t else '\\' :: c :: t, r)
    | c :: s => (backquoted n s).map fun (t, r) => (c :: t, r)

/-- Runs a reader on a text of its own, all of which it has to take. -/
def inside (r : Reader α) (s : List Char) : Reader α := do
  match r.run s with
  | some (a, []) => return a
  | _ => failure

/-- The name of a variable: letters and digits, or one special character. -/
def name? : Reader (Option (List Char)) := do
  match ← rest with
  | c :: _ =>
    if isNameStart c then return some (← span isNameChar)
    else if c.isDigit || "@*#?$!-".toList.contains c then
      skip 1
      return some [c]
    else return none
  | [] => return none

/-- An operator on the value of a variable. -/
def change? : Reader (Option (List Char)) := do
  let ops := [":-", ":+", ":=", ":?", "-", "+", "=", "?", "%%", "%", "##", "#"]
  let s ← rest
  match ops.find? fun o => o.toList.isPrefixOf s with
  | some o => do
    skip o.length
    return some o.toList
  | none => return none

/-- The number of the stream in front of a redirection. -/
def streamNumber? : Reader (Option Nat) := do
  let s ← rest
  let ds := s.takeWhile Char.isDigit
  match s.drop ds.length with
  | c :: _ =>
    if c = '<' || c = '>' then
      skip ds.length
      if ds.isEmpty then return some (if c = '<' then 0 else 1)
      return some (Sum.ofDigits 10 ds)
    return none
  | [] => return none

/-- The name of a variable that is set here. -/
def setting? : Reader (Option (List Char)) := do
  let s ← rest
  let name := s.takeWhile isNameChar
  match name, s.drop name.length with
  | c :: _, '=' :: _ =>
    if isNameStart c then
      skip (name.length + 1)
      return some name
    return none
  | _, _ => return none

/-- The name of a function that is defined here. -/
def definition? : Reader (Option (List Char)) := do
  let s ← rest
  let name := s.takeWhile isNameChar
  match (s.drop name.length).dropWhile fun c => c = ' ' with
  | '(' :: r =>
    match r.dropWhile fun c => c = ' ' with
    | ')' :: r =>
      if name.head?.any isNameStart then
        set r
        return some name
      return none
    | _ => return none
  | _ => return none

/-! ## Words and commands -/

mutual

/-- The parts of a word, up to a character that ends it. `closing` ends it, too. -/
def parts : Nat → Option Char → Reader Word
  | 0, _ => failure
  | n + 1, closing => do
    match ← rest with
    | [] => return []
    | c :: s =>
      if some c = closing || (closing.isNone && endsWord c) then return []
      else if c = '\'' then
        skip 1
        let t ← span fun c => c ≠ '\''
        want "'"
        return .text t true :: (← parts n closing)
      else if c = '"' then
        skip 1
        let ps ← quotedParts n true
        want "\""
        let ps := match ps with
          | [.value ['@'] none _] => ps
          | ps => .text [] true :: ps
        return ps ++ (← parts n closing)
      else if c = '\\' then
        match s with
        | [] => failure
        | d :: _ =>
          skip 2
          if d = '\n' then parts n closing
          else return .text [d] true :: (← parts n closing)
      else if c = '$' || c = '\x60' then
        let p ← dollar n false
        return p :: (← parts n closing)
      else
        let t ← span fun c => isPlain c && some c ≠ closing
        if t.isEmpty then
          skip 1
          return .text [c] false :: (← parts n closing)
        return .text t false :: (← parts n closing)

/-- The parts between double quotes, or of a text that is read as if it were there. -/
def quotedParts : Nat → Bool → Reader Word
  | 0, _ => failure
  | n + 1, closed => do
    match ← rest with
    | [] => return []
    | c :: s =>
      if c = '"' then
        if closed then return []
        skip 1
        return .text ['"'] true :: (← quotedParts n closed)
      else if c = '\\' then
        match s with
        | [] => failure
        | d :: _ =>
          skip 2
          if d = '\n' then quotedParts n closed
          else
            let t := if "$\x60\"\\".toList.contains d then [d] else ['\\', d]
            return .text t true :: (← quotedParts n closed)
      else if c = '$' || c = '\x60' then
        let p ← dollar n true
        return p :: (← quotedParts n closed)
      else
        let t ← span isPlainQuoted
        return .text t true :: (← quotedParts n closed)

/-- A part that stands for something else. -/
def dollar : Nat → Bool → Reader Part
  | 0, _ => failure
  | n + 1, quoted => do
    if ← took "\x60" then
      let (t, r) ← (backquoted ((← rest).length + 1) (← rest) : Option _)
      set r
      return .output (← inside (commands n) t) quoted
    skip 1
    if ← took "((" then
      let (t, r) ← (sumText ((← rest).length + 1) 0 (← rest) : Option _)
      set r
      return .sum (← inside (quotedParts n false) t) quoted
    if ← took "(" then
      let body ← commands n
      want ")"
      return .output body quoted
    if ← took "\x7b" then
      let s ← rest
      if s.head? = some '#' && s.tail.head?.any isNameStart then
        skip 1
        let name ← span isNameChar
        want "\x7d"
        return .length name
      let some name ← (if s.head?.any Char.isDigit then some <$> span Char.isDigit else name?)
        | failure
      match ← change? with
      | none =>
        want "\x7d"
        return .value name none quoted
      | some op =>
        let w ← parts n (some '\x7d')
        want "\x7d"
        return .value name (some (op, w)) quoted
    match ← name? with
    | some name => return .value name none quoted
    | none => return .text ['$'] quoted

/-- Redirections. -/
def redirects : Nat → Reader (List Redirect)
  | 0 => failure
  | n + 1 => do
    blanks
    match ← streamNumber? with
    | none => return []
    | some fd =>
      if (← took ">&") || (← took "<&") then
        blanks
        let w ← parts n none
        if w.isEmpty then failure
        return .same fd w :: (← redirects n)
      let some _ ← (["<>", ">>", ">|", ">", "<"].findM? fun s => took s) | failure
      blanks
      let w ← parts n none
      if w.isEmpty then failure
      return .file fd w :: (← redirects n)

/-- The settings, words and redirections of a simple command. -/
def simpleParts : Nat → Bool →
    Reader (List (List Char × Word) × List Word × List Redirect)
  | 0, _ => failure
  | n + 1, settable => do
    blanks
    let rs ← redirects n
    if !rs.isEmpty then
      let (settings, words, more) ← simpleParts n settable
      return (settings, words, rs ++ more)
    match ← (if settable then setting? else pure none) with
    | some name =>
      let value ← parts n none
      let (settings, words, more) ← simpleParts n true
      return ((name, value) :: settings, words, more)
    | none =>
      match ← parts n none with
      | [] => return ([], [], [])
      | w =>
        let (settings, words, more) ← simpleParts n false
        return (settings, w :: words, more)

/-- Words up to the end of a line. -/
def words : Nat → Reader (List Word)
  | 0 => failure
  | n + 1 => do
    blanks
    match ← parts n none with
    | [] => return []
    | w => return w :: (← words n)

/-- The commands between `do` and `done`. -/
def doneBody : Nat → Reader (List Command)
  | 0 => failure
  | n + 1 => do
    reserved "do"
    let body ← commands n
    reserved "done"
    return body

/-- What follows the test of a branch. -/
def branches : Nat → Reader Command
  | 0 => failure
  | n + 1 => do
    let test ← commands n
    reserved "then"
    let yes ← commands n
    lines
    if ← isAhead "elif" then
      skip 4
      return .branch test yes [← branches n]
    if ← isAhead "else" then
      skip 4
      let no ← commands n
      reserved "fi"
      return .branch test yes no
    reserved "fi"
    return .branch test yes []

/-- Patterns with a bar between them, up to a bracket. -/
def patterns : Nat → Reader (List Word)
  | 0 => failure
  | n + 1 => do
    blanks
    let w ← parts n none
    if w.isEmpty then failure
    blanks
    if ← took "|" then return w :: (← patterns n)
    want ")"
    return [w]

/-- The cases of a choice. -/
def caseList : Nat → Reader (List (List Word × List Command))
  | 0 => failure
  | n + 1 => do
    lines
    if ← isAhead "esac" then
      skip 4
      return []
    let _ ← took "("
    let ps ← patterns n
    let body ← commands n
    lines
    if ← took ";;" then return (ps, body) :: (← caseList n)
    reserved "esac"
    return [(ps, body)]

/-- One command, the redirections after a compound one apart. -/
def plainCommand : Nat → Reader Command
  | 0 => failure
  | n + 1 => do
    if ← took "(" then
      let body ← commands n
      want ")"
      return .apart body
    let w := String.ofList (← ahead)
    if w = "\x7b" then
      skip 1
      let body ← commands n
      reserved "\x7d"
      return .group body
    else if w = "if" then
      skip 2
      branches n
    else if w = "while" || w = "until" then
      skip 5
      let test ← commands n
      return .loop (w = "until") test (← doneBody n)
    else if w = "for" then
      skip 3
      blanks
      let some name ← name? | failure
      lines
      if ← isAhead "in" then
        skip 2
        let ws ← words n
        let _ ← took ";"
        return .each name ws (← doneBody n)
      let _ ← took ";"
      return .each name [[.value ['@'] none true]] (← doneBody n)
    else if w = "case" then
      skip 4
      blanks
      let word ← parts n none
      reserved "in"
      return .choose word (← caseList n)
    else if let some name ← definition? then
      lines
      return .define name (← command n)
    else
      let (settings, ws, rs) ← simpleParts n true
      if settings.isEmpty && ws.isEmpty && rs.isEmpty then failure
      return if rs.isEmpty then .simple settings ws else .redirected (.simple settings ws) rs

/-- One command. -/
def command : Nat → Reader Command
  | 0 => failure
  | n + 1 => do
    let c ← plainCommand n
    let rs ← redirects n
    return if rs.isEmpty then c else .redirected c rs

/-- Commands with bars between them. -/
def stages : Nat → Reader (List Command)
  | 0 => failure
  | n + 1 => do
    lines
    let c ← command n
    blanks
    let s ← rest
    if s.head? = some '|' && !"||".toList.isPrefixOf s then
      skip 1
      return c :: (← stages n)
    return [c]

/-- A pipeline, perhaps with a mark that turns its status round. -/
def pipeline : Nat → Reader Command
  | 0 => failure
  | n + 1 => do
    lines
    if ← isAhead "!" then
      skip 1
      blanks
      return .negated (← pipeline n)
    match ← stages n with
    | [c] => return c
    | cs => return .pipeline cs

/-- Pipelines that hang on the status of the one before. -/
def chained : Nat → Command → Reader Command
  | 0, _ => failure
  | n + 1, c => do
    blanks
    if ← took "&&" then chained n (.both c (← pipeline n))
    else if ← took "||" then chained n (.either c (← pipeline n))
    else return c

/-- **Commands** up to a word that ends them. -/
def commands : Nat → Reader (List Command)
  | 0 => failure
  | n + 1 => do
    lines
    if ← atClose then return []
    let c ← chained n (← pipeline n)
    blanks
    let s ← rest
    if ";;".toList.isPrefixOf s then return [c]
    if s.head? = some '&' then
      skip 1
      return .apart [c] :: (← commands n)
    if s.head? = some ';' || s.head? = some '\n' then
      skip 1
      return c :: (← commands n)
    if ← atClose then return [c]
    failure

end

end Reader

/-- **Reads a whole script.** -/
def read? (s : List Char) : Option (List Command) :=
  match (Reader.commands (16 * (s.length + 4))).run s with
  | some (cs, []) => some cs
  | _ => none

end PaneRelay.Shell
