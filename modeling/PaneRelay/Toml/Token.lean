import PaneRelay.Json.Token

/-! # Blanks, comments and strings in TOML

There are strings with escapes and literal ones, and each kind may go over several lines. A line
ends with a line feed, which a carriage return may precede; in the value of a string it is always a
line feed alone.

* `skipLines`: blanks, line ends and comments between the elements of an array.
* `readString`: a string of any kind after its opening quote.
* `readKey`: a dotted key. -/

namespace PaneRelay.Toml

open PaneRelay.Text

/-! ## Blanks and comments -/

/-- The blanks within a line. -/
def isGap (c : Char) : Bool := c = ' ' || c = '\t'

/-- Characters that may stand in a comment. -/
def isCommentChar (c : Char) : Bool := c = '\t' || (' ' ≤ c && c ≠ '\x7f')

/-- A text without the blanks at its front. -/
def skipGaps (s : List Char) : Rest s := dropFront isGap s

/-- A text without the blanks, line ends and comments at its front; the flag says whether it starts
within a comment. -/
def skipLines : Bool → (s : List Char) → Rest s
  | _, [] => .whole []
  | _, '\r' :: '\n' :: r => ((skipLines false r).after '\n').after '\r'
  | inside, c :: r =>
    if c = '\n' then (skipLines false r).after c
    else if inside && isCommentChar c then (skipLines true r).after c
    else if !inside && isGap c then (skipLines false r).after c
    else if !inside && c = '#' then (skipLines true r).after c
    else .whole (c :: r)

/-- What follows the end of a line: nothing, if the text ends there. -/
def lineEnd? (s : List Char) : Option (Rest s) :=
  match s with
  | [] => some (.whole [])
  | '\n' :: r => some ((Rest.whole r).after '\n')
  | '\r' :: '\n' :: r => some (((Rest.whole r).after '\n').after '\r')
  | _ => none

/-- The rest of a line after something: blanks, perhaps a comment, and the end of the line. -/
def finishLine (s : List Char) : Option (Rest s) :=
  let ⟨r, h⟩ := skipGaps s
  match r, h with
  | '#' :: r, h =>
    let ⟨t, ht⟩ := dropFront isCommentChar r
    (lineEnd? t).map fun u => ((u.within ht).after '#').within h
  | r, h => (lineEnd? r).map fun u => u.within h

/-! ## Strings -/

/-- Characters that stand for themselves in a string with escapes. -/
def isBasicChar (c : Char) : Bool := isCommentChar c && c ≠ '"' && c ≠ '\\'

/-- Characters that stand for themselves in a literal string. -/
def isLiteralChar (c : Char) : Bool := isCommentChar c && c ≠ '\''

/-- The character that a letter after a backslash denotes. -/
def escaped? (c : Char) : Option Char :=
  if c = '"' ∨ c = '\\' then some c
  else if c = 'b' then some '\x08'
  else if c = 'f' then some '\x0c'
  else if c = 'n' then some '\n'
  else if c = 'r' then some '\r'
  else if c = 't' then some '\t'
  else none

/-- The number that hexadecimal digits denote. -/
def hexNumber? (ds : List Char) : Option Nat :=
  ds.foldlM (fun n c => (Json.hexValue? c).map fun d => n * 16 + d) 0

/-- The character with a number, if there is one. -/
def charOf? (n : Nat) : Option Char :=
  if n.isValidChar then some (Char.ofNat n) else none

/-- The character that the first `n` digits of a text denote. -/
def readCode (n : Nat) (s : List Char) : Option (Char × Rest s) :=
  if (s.take n).length = n then do
    let c ← (hexNumber? (s.take n)).bind charOf?
    return (c, ⟨s.drop n, by simp⟩)
  else none

/-- Reads what follows a backslash. -/
def readEscape (s : List Char) : Option (Step s Char) :=
  match s with
  | [] => none
  | 'u' :: r => (readCode 4 r).map fun (c, t) => t.step 'u' c
  | 'U' :: r => (readCode 8 r).map fun (c, t) => t.step 'U' c
  | c :: r => (escaped? c).map fun d => .first c r d

/-- Reads a string with escapes after its opening quote. -/
def readBasic (s : List Char) : Option (Step s (List Char)) :=
  match s with
  | [] => none
  | '"' :: r => some (.first '"' r [])
  | '\\' :: r => do
    let ⟨c, t, h⟩ ← readEscape r
    let x ← readBasic t
    return ((x.map (c :: ·)).within h).after '\\'
  | c :: r => do
    if !isBasicChar c then none
    let x ← readBasic r
    return (x.map (c :: ·)).after c
termination_by s.length

/-- Reads a literal string after its opening quote. -/
def readLiteral (s : List Char) : Option (Step s (List Char)) :=
  match s with
  | [] => none
  | '\'' :: r => some (.first '\'' r [])
  | c :: r => do
    if !isLiteralChar c then none
    let x ← readLiteral r
    return (x.map (c :: ·)).after c

/-- Up to two more quotes right after the closing ones belong to the string. -/
def readLastQuotes (q : Char) (s : List Char) : List Char × Rest s :=
  match s with
  | a :: b :: r =>
    if a = q && b = q then ([q, q], ((Rest.whole r).after b).after a)
    else if a = q then ([q], (Rest.whole (b :: r)).after a)
    else ([], .whole (a :: b :: r))
  | [a] => if a = q then ([q], (Rest.whole []).after a) else ([], .whole [a])
  | [] => ([], .whole [])

/-- A text without the blanks and line ends at its front. -/
def skipBlankLines : (s : List Char) → Rest s
  | [] => .whole []
  | '\r' :: '\n' :: r => ((skipBlankLines r).after '\n').after '\r'
  | c :: r => if isGap c || c = '\n' then (skipBlankLines r).after c else .whole (c :: r)

/-- What follows a backslash that stands at the end of a line: the blanks and line ends after it are
left out. -/
def joinLines? (s : List Char) : Option (Rest s) :=
  let ⟨r, h⟩ := skipGaps s
  match r, h with
  | '\n' :: r, h => some (((skipBlankLines r).after '\n').within h)
  | '\r' :: '\n' :: r, h => some ((((skipBlankLines r).after '\n').after '\r').within h)
  | _, _ => none

/-- Reads a string with escapes that may go over several lines, after its opening quotes. -/
def readBasicLines (s : List Char) : Option (Step s (List Char)) :=
  match s with
  | [] => none
  | '"' :: '"' :: '"' :: r =>
    let (cs, t) := readLastQuotes '"' r
    some (((t.step '"' cs).after '"').after '"')
  | '\\' :: r =>
    match joinLines? r with
    | some ⟨t, h⟩ => do
      let x ← readBasicLines t
      return (x.widen h).after '\\'
    | none => do
      let ⟨c, t, h⟩ ← readEscape r
      let x ← readBasicLines t
      return ((x.map (c :: ·)).within h).after '\\'
  | '\r' :: '\n' :: r => do
    let x ← readBasicLines r
    return ((x.map ('\n' :: ·)).after '\n').after '\r'
  | c :: r => do
    if !(isBasicChar c || c = '"' || c = '\n') then none
    let x ← readBasicLines r
    return (x.map (c :: ·)).after c
termination_by s.length

/-- Reads a literal string that may go over several lines, after its opening quotes. -/
def readLiteralLines (s : List Char) : Option (Step s (List Char)) :=
  match s with
  | [] => none
  | '\'' :: '\'' :: '\'' :: r =>
    let (cs, t) := readLastQuotes '\'' r
    some (((t.step '\'' cs).after '\'').after '\'')
  | '\r' :: '\n' :: r => do
    let x ← readLiteralLines r
    return ((x.map ('\n' :: ·)).after '\n').after '\r'
  | c :: r => do
    if !(isLiteralChar c || c = '\'' || c = '\n') then none
    let x ← readLiteralLines r
    return (x.map (c :: ·)).after c
termination_by s.length

/-- A line end right after the opening quotes of a string of several lines is left out. -/
def firstLine (s : List Char) : Rest s :=
  match s with
  | '\n' :: r => (Rest.whole r).after '\n'
  | '\r' :: '\n' :: r => ((Rest.whole r).after '\n').after '\r'
  | r => .whole r

/-- **Reads a string** of any kind, its opening quote included. -/
def readString (s : List Char) : Option (Step s String) :=
  match s with
  | '"' :: '"' :: '"' :: r => do
    let ⟨t, h⟩ := firstLine r
    let x ← readBasicLines t
    return ((((x.map String.ofList).widen h).after '"').after '"').after '"'
  | '\'' :: '\'' :: '\'' :: r => do
    let ⟨t, h⟩ := firstLine r
    let x ← readLiteralLines t
    return ((((x.map String.ofList).widen h).after '\'').after '\'').after '\''
  | '"' :: r => do
    let x ← readBasic r
    return (x.map String.ofList).after '"'
  | '\'' :: r => do
    let x ← readLiteral r
    return (x.map String.ofList).after '\''
  | _ => none

/-! ## Keys -/

/-- Characters of a key that is not quoted. -/
def isBareChar (c : Char) : Bool := c.isAlphanum || c = '_' || c = '-'

/-- Reads one part of a key. -/
def readPart (s : List Char) : Option (Step s String) :=
  match s with
  | [] => none
  | '"' :: r => do
    let x ← readBasic r
    return (x.map String.ofList).after '"'
  | '\'' :: r => do
    let x ← readLiteral r
    return (x.map String.ofList).after '\''
  | c :: r =>
    if isBareChar c then
      some ((dropFront isBareChar r).step c (String.ofList (c :: r.takeWhile isBareChar)))
    else none

/-- **Reads a dotted key**, with the blanks around its parts. -/
def readKey (s : List Char) : Option (Step s (List String)) := do
  let ⟨r, h⟩ := skipGaps s
  let ⟨k, t, h1⟩ ← readPart r
  let ⟨u, h2⟩ := skipGaps t
  match take? '.' u with
  | some ⟨_, v, h3⟩ => do
    let x ← readKey v
    return ((((x.map (k :: ·)).within h3).widen h2).within h1).widen h
  | none => return ((Step.mk [k] t h1).leaving ⟨u, h2⟩).widen h
termination_by s.length

end PaneRelay.Toml
