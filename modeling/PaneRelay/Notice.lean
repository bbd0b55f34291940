import PaneRelay.Control
import PaneRelay.Json.Printer

/-! # Notices to the consumer

The hub answers a malformed control message with a JSON text. A notice names its kind in the member
`type`; there is one kind, `error`.

* `Notice`, `Notice.text`: a notice and its text.
* `Notice.parse`: reads a notice. -/

namespace PaneRelay

open PaneRelay.Json PaneRelay.Text

/-- **A notice.** -/
inductive Notice where
  /-- Something the consumer sent was refused. -/
  | error (message : String)
deriving DecidableEq, Repr

namespace Notice

/-- The notice of a refused control message. -/
def ofControlError (e : Control.ControlError) : Notice := .error e.message

/-- A notice as JSON. -/
def text : Notice → String
  | .error m => "\x7b\"type\":\"error\",\"message\":" ++ quote m ++ "\x7d"

/-! ## Reading a notice

The kind may stand anywhere in an object, so the other members are kept until it is known. In an
array the kind comes first. -/

/-- Reads the kind of a notice. -/
def readKind (s : List Char) : Except Fault (Step s Unit) := do
  match h : skipBlanks s with
  | [] => throw (.before .eofValue [])
  | c :: r =>
    if c = '"' then
      let ⟨cs, r', h'⟩ ← readString .wanted r
      if cs = "error".toList then
        return (Step.mk () r' h').widen (le_of_skipBlanks h)
      throw (.before (.unknownVariant (String.ofList cs) "error") r')
    else throw (mismatch "variant identifier" (c :: r))

/-- Reads the members of a notice and its closing brace: all but the kind, if there is a kind. -/
def readMembers (first tagged : Bool) (s : List Char) :
    Except Fault (Step s (List (String × Tree))) := do
  match ← nextKey first s with
  | none =>
    match h : skipBlanks s with
    | [] => throw (.before .eofObject [])
    | _ :: r =>
      if tagged then
        return ⟨[], r, lt_of_skipBlanks h⟩
      throw (.before (.missingField "type") r)
  | some ⟨key, r, h⟩ =>
    if key = "type" then
      if tagged then throw (.before (.duplicateField "type") (pastClosing '\x7d' r))
      let ⟨_, r1, h1⟩ ← readColon r
      let ⟨_, r2, h2⟩ ← readKind r1
      let x ← readMembers false true r2
      return ((x.within h2).within h1).within h
    else
      let ⟨_, r1, h1⟩ ← readColon r
      let ⟨v, r2, h2⟩ ← readTree .wanted r1
      let x ← readMembers false tagged r2
      return (((x.map ((key, v) :: ·)).within h2).within h1).within h
termination_by s.length

/-- Reads the further elements of a notice written as an array, and its closing bracket. -/
def readElements (s : List Char) : Except Fault (Step s (List Tree)) := do
  match ← nextElement false s with
  | none =>
    let ⟨_, r, h⟩ ← endList s
    return ⟨[], r, h⟩
  | some ⟨r, h⟩ =>
    let ⟨v, r1, h1⟩ ← readTree .wanted r
    let x ← readElements r1
    return ((x.map (v :: ·)).within h1).widen h
termination_by s.length

/-- The text in a value. -/
def textOf : Tree → Except Fault String
  | .string t => .ok t
  | v => .error (.nowhere (.invalidType v.found Shape.text.expected))

/-- The message among the members of a notice; other members do not matter. -/
def messageOf (found : Option String) : List (String × Tree) → Except Fault String
  | [] =>
    match found with
    | some m => .ok m
    | none => .error (.nowhere (.missingField "message"))
  | (key, v) :: ms =>
    if key = "message" then
      if found.isSome then .error (.nowhere (.duplicateField "message"))
      else do
        let m ← textOf v
        messageOf (some m) ms
    else messageOf found ms

/-- The message of a notice written as an array, which has to be its only element. -/
def messageOfList : List Tree → Except Fault String
  | [] => .error (.nowhere (.invalidLength 0 "struct variant ServerNotice::Error with 1 element"))
  | v :: vs => do
    let m ← textOf v
    if vs.isEmpty then return m
    throw (.nowhere (.invalidLength (vs.length + 1) "1 element in sequence"))

/-- Reads a notice off a text and says what follows it. -/
def readNotice (s : List Char) : Except Fault (Except Fault String × List Char) := do
  match skipBlanks s with
  | [] => throw (.before .eofValue [])
  | c :: r =>
    if c = '\x7b' then
      let ⟨ms, r', _⟩ ← readMembers true false r
      return (messageOf none ms, r')
    else if c = '[' then
      match ← nextElement true r with
      | none => throw (.before (.missingField "type") (pastClosing ']' r))
      | some ⟨r1, _⟩ =>
        let ⟨_, r2, _⟩ ← readKind r1
        let ⟨vs, r3, _⟩ ← readElements r2
        return (messageOfList vs, r3)
    else throw (mismatch "internally tagged enum ServerNotice" (c :: r))

/-- **Reads a notice.** -/
def parse (text : String) : Except Fault Notice := do
  let (message, r) ← readNotice text.toList
  let m ← message
  readEnd r
  return .error m

end Notice

end PaneRelay
