import PaneRelay.Config.Setting
import PaneRelay.Json.Token
import PaneRelay.Text.Blank

/-! # Settings from environment variables

A variable whose name starts with the program's name gives one setting. The rest of the name is a
path, in which two underscores lead into a table. The value is read as a truth value, a number, a
quoted text, a character, a list or a table if it has that form, and as plain text otherwise.

* `pathOf?`: the path that a name denotes.
* `readValue`, `valueOf`: the setting that a value denotes.
* `Environment.setting`: all variables as one tree. -/

namespace PaneRelay.Config

open PaneRelay.Text

/-- **Variables** with their values, in order. -/
abbrev Environment := List (String × String)

namespace Environment

/-! ## Names -/

/-- How the name of a variable starts that gives a setting, in capitals. -/
def marker : List Char := "PANEMUX_".toList

/-- Splits a path at dots and at double underscores; `word` holds the part read so far, from its
end. -/
def splitPath (word : List Char) : List Char → List (List Char)
  | [] => [word.reverse]
  | '_' :: '_' :: r => word.reverse :: splitPath [] r
  | c :: r => if c = '.' then word.reverse :: splitPath [] r else splitPath (c :: word) r

/-- **The path that a name denotes**, in small letters. White space at the ends of the name or of
the path does not count. A name with an empty part denotes none. -/
def pathOf? (name : String) : Option (List String) :=
  let cs := trim name.toList
  if (cs.take marker.length).map Char.toUpper = marker then
    let parts := splitPath [] (trim (cs.drop marker.length))
    if parts.any List.isEmpty then none
    else some (parts.map fun p => String.ofList (p.map Char.toLower))
  else none

/-! ## Values -/

/-- A text without the blanks at its front. -/
def skipBlanks (s : List Char) : Rest s := dropFront isPlainBlank s

/-- Characters that end a plain value within a list or a table. -/
def isMark (c : Char) : Bool := c = ',' || c = '\x7b' || c = '\x7d' || c = '[' || c = ']'

/-- The number of decimal digits, of which there is at least one. -/
def decimal? (s : List Char) : Option Nat :=
  if !s.isEmpty && s.all Char.isDigit then
    some (s.foldl (fun n c => n * 10 + (c.toNat - 48)) 0)
  else none

/-- A whole number: without a sign or with a plus it is unsigned, else signed, in 64 bits. -/
def whole? (s : List Char) : Option Setting :=
  match s with
  | '-' :: r => do
    let n ← decimal? r
    if n ≤ 0x8000000000000000 then some (.signed (-(n : Int))) else none
  | '+' :: r => do
    let n ← decimal? r
    if n < 0x10000000000000000 then some (.unsigned n) else none
  | r => do
    let n ← decimal? r
    if n < 0x10000000000000000 then some (.unsigned n) else none

/-- An exponent at the end of a number, or nothing. -/
def exponent? (s : List Char) : Option Int :=
  match s with
  | [] => some 0
  | c :: r =>
    if c = 'e' ∨ c = 'E' then
      match r with
      | '-' :: r => (decimal? r).map fun n => -(n : Int)
      | '+' :: r => (decimal? r).map fun n => (n : Int)
      | r => (decimal? r).map fun n => (n : Int)
    else none

/-- A number with a point; digits may be missing on one side of it. -/
def real? (s : List Char) : Option Setting := do
  let (negative, r) := match s with
    | '-' :: r => (true, r)
    | '+' :: r => (false, r)
    | r => (false, r)
  let whole := r.takeWhile Char.isDigit
  match r.dropWhile Char.isDigit with
  | '.' :: r =>
    let fraction := r.takeWhile Char.isDigit
    let e ← exponent? (r.dropWhile Char.isDigit)
    let ds := whole ++ fraction
    let n ← decimal? ds
    return .real (Binary64.ofDigits negative n ds.length (e - fraction.length))
  | _ => none

/-- **A plain value:** a number, or text. -/
def plain (s : List Char) : Setting :=
  ((real? s) <|> (whole? s)).getD (.text (String.ofList s))

/-- The characters of a quoted text up to its closing quote, escapes not yet read. -/
def readQuoted (s : List Char) : Option (Step s (List Char)) :=
  match s with
  | [] => none
  | '"' :: r => some (.first '"' r [])
  | '\\' :: c :: r => do
    let x ← readQuoted r
    return ((x.map fun cs => '\\' :: c :: cs).after c).after '\\'
  | c :: r => do
    let x ← readQuoted r
    return (x.map (c :: ·)).after c

/-- The character that hexadecimal digits denote. -/
def codeOf? (ds : List Char) : Option Char := do
  let n ← ds.foldlM (fun n c => (Json.hexValue? c).map fun d => n * 16 + d) 0
  if n.isValidChar then some (Char.ofNat n) else none

/-- Characters that stand for themselves in a quoted text. -/
def isTextChar (c : Char) : Bool := c = '\t' || (' ' ≤ c && c ≠ '\x7f')

/-- A text with its escapes read. -/
def unescape (s : List Char) : Option (List Char) :=
  match s with
  | [] => some []
  | '\\' :: 'u' :: a :: b :: c :: d :: r => do
    return (← codeOf? [a, b, c, d]) :: (← unescape r)
  | '\\' :: 'U' :: a :: b :: c :: d :: e :: f :: g :: h :: r => do
    return (← codeOf? [a, b, c, d, e, f, g, h]) :: (← unescape r)
  | '\\' :: c :: r => do
    let d ←
      if c = '"' ∨ c = '\\' then some c
      else if c = 'b' then some '\x08'
      else if c = 'f' then some '\x0c'
      else if c = 'n' then some '\n'
      else if c = 'r' then some '\r'
      else if c = 't' then some '\t'
      else none
    return d :: (← unescape r)
  | ['\\'] => none
  | c :: r => do
    if !isTextChar c then none
    return c :: (← unescape r)
termination_by s.length

/-- Reads a quoted text after its opening quote. -/
def readText (s : List Char) : Option (Step s String) := do
  let ⟨cs, t, h⟩ ← readQuoted s
  return ⟨String.ofList (← unescape cs), t, h⟩

/-- Characters of a key that is not quoted. -/
def isKeyChar (c : Char) : Bool := c.isAlphanum || c = '_' || c = '-'

/-- Reads a key of a table, with the blanks around it. -/
def readKey (s : List Char) : Option (Step s String) :=
  let ⟨r, h⟩ := skipBlanks s
  match r, h with
  | [], _ => none
  | '"' :: r, h => do
    let x ← readText r
    return ((x.leaving (skipBlanks x.rest)).after '"').widen h
  | c :: r, h =>
    if isKeyChar c then
      let t := dropFront isKeyChar r
      let u := (skipBlanks t.1).within t.2
      some ((u.step c (String.ofList (c :: r.takeWhile isKeyChar))).widen h)
    else none

mutual

/-- **Reads a value**, with the blanks around it. -/
def readValue (s : List Char) : Option (Setting × Rest s) := do
  let ⟨r, h⟩ := skipBlanks s
  let (v, t) ← readForm r
  return (v, ((skipBlanks t.1).within t.2).within h)
termination_by (s.length, 1)
decreasing_by rw [Prod.lex_def]; simp only; omega

/-- Reads a value that starts right here. -/
def readForm (s : List Char) : Option (Setting × Rest s) :=
  match s with
  | 't' :: 'r' :: 'u' :: 'e' :: r =>
    some (.bool true, ((((Rest.whole r).after 'e').after 'u').after 'r').after 't')
  | 'f' :: 'a' :: 'l' :: 's' :: 'e' :: r =>
    some (.bool false, (((((Rest.whole r).after 'e').after 's').after 'l').after 'a').after 'f')
  | '\x7b' :: r => do
    let x ← readEntries [] r
    return (.table x.val, x.left.after '\x7b')
  | '[' :: r => do
    let x ← readItems r
    return (.list x.val, x.left.after '[')
  | '"' :: r => do
    let x ← readText r
    return (.text x.val, x.left.after '"')
  | '\'' :: c :: '\'' :: r => some (.char c, (((Rest.whole r).after '\'').after c).after '\'')
  | '\'' :: _ => none
  | s =>
    some (plain (trim (s.takeWhile fun c => !isMark c)), dropFront (fun c => !isMark c) s)
termination_by (s.length, 0)

/-- Reads the elements of a list, and its closing bracket. -/
def readItems (s : List Char) : Option (Step s (List Setting)) :=
  match s with
  | [] => none
  | c :: r =>
    if c = ']' then some (.first c r [])
    else do
      let (v, ⟨t, h⟩) ← readValue (c :: r)
      match take? ',' t with
      | some ⟨_, u, h1⟩ => do
        let x ← readItems u
        return ((x.map (v :: ·)).within h1).widen h
      | none => do
        let x ← take? ']' t
        return (x.map fun _ => [v]).widen h
termination_by (s.length, 2)
decreasing_by
  · exact Prod.Lex.right _ (by decide)
  · rw [Prod.lex_def]; simp only; omega

/-- Reads the entries of a table, and its closing brace. -/
def readEntries (es : List (String × Setting)) (s : List Char) :
    Option (Step s (List (String × Setting))) :=
  match s with
  | [] => none
  | c :: r =>
    if c = '\x7d' then some (.first c r es)
    else do
      let ⟨k, t, h⟩ ← readKey (c :: r)
      let ⟨_, u, h1⟩ ← take? '=' t
      let (v, ⟨w, h2⟩) ← readValue u
      let es := Setting.put k v es
      match take? ',' w with
      | some ⟨_, x, h3⟩ => do
        let y ← readEntries es x
        return (((y.within h3).widen h2).within h1).within h
      | none => do
        let x ← take? '\x7d' w
        return (((x.map fun _ => es).widen h2).within h1).within h
termination_by (s.length, 2)
decreasing_by
  · rw [Prod.lex_def]; simp only; omega
  · rw [Prod.lex_def]; simp only; omega

end

/-- **The setting that a value denotes:** plain text if it has no other form. -/
def valueOf (value : String) : Setting :=
  let cs := trim value.toList
  match readValue cs with
  | some (v, ⟨[], _⟩) => v
  | _ => .text (String.ofList cs)

/-! ## The tree -/

/-- A setting at the end of a path. -/
def nest (v : Setting) : List String → Setting
  | [] => v
  | k :: ks => .table [(k, nest v ks)]

/-- The setting that one variable gives, if it gives one. -/
def settingOf? (name value : String) : Option Setting :=
  (pathOf? name).map (nest (valueOf value))

/-- Sets a variable, in place of its value before. -/
def assign (env : Environment) (name value : String) : Environment :=
  match env with
  | [] => [(name, value)]
  | (n, v) :: rest => if n = name then (n, value) :: rest else (n, v) :: assign rest name value

/-- The variables after all assignments, each name once. -/
def settled (env : Environment) : Environment := env.foldl (fun e (n, v) => assign e n v) []

/-- **All variables as one tree**, each laid over those before it. -/
def setting (env : Environment) : Setting :=
  (settled env).foldl (fun t (name, value) =>
    match settingOf? name value with
    | some v => v.laidOn t
    | none => t) (.table [])

end Environment

end PaneRelay.Config
