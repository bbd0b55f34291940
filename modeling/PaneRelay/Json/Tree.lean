import PaneRelay.Json.Token

/-! # JSON values of any form

A reader for a value of which nothing is known but that it is JSON.

* `Tree`: a value with its numbers and strings; members keep their order and may repeat a key.
* `readTree`: reads a value off the front of a text.
* `skipValue`: the same for a value that is not wanted. -/

namespace PaneRelay.Json

open PaneRelay.Text

/-- **A JSON value.** -/
inductive Tree where
  /-- The value `null`. -/
  | null
  /-- A truth value. -/
  | bool (b : Bool)
  /-- A number. -/
  | number (n : Number)
  /-- A string. -/
  | string (s : String)
  /-- An array. -/
  | list (items : List Tree)
  /-- An object. -/
  | object (members : List (String × Tree))

/-- What a value is called where another was wanted. -/
def Tree.found : Tree → Found
  | .null => .null
  | .bool b => .bool b
  | .number n => .number n
  | .string s => .string s
  | .list _ => .sequence
  | .object _ => .map

/-- Reads a number after its sign; one that is not wanted has no value and counts as zero. -/
def readNumberFor (use : Use) (negative : Bool) (s : List Char) : Except Fault (Step s Number) :=
  match use with
  | .wanted => readNumber negative s
  | .skipped => do
    let ⟨_, r, h⟩ ← readNumeral .skipped negative s
    return ⟨.whole 0, r, h⟩

/-- Where an object's text ends after a comma: a wanted object still waits for a value there. -/
def endAfterComma : Use → Cause
  | .wanted => .eofValue
  | .skipped => .eofObject

/-- Reads the key of a member; `ended` is the cause reported if the text ends before it. -/
def readKey (use : Use) (ended : Cause) (s : List Char) : Except Fault (Step s String) :=
  match h : skipBlanks s with
  | [] => .error (.before ended [])
  | '"' :: r => do
    let x ← readString use r
    return (x.map String.ofList).widen (le_of_skipBlanks h)
  | c :: r => .error (.atFirst .keyNotString (c :: r))

/-- Reads the colon between a key and its value. -/
def readColon (s : List Char) : Except Fault (Step s Unit) :=
  match h : skipBlanks s with
  | [] => .error (.before .eofObject [])
  | ':' :: r => .ok ⟨(), r, lt_of_skipBlanks h⟩
  | c :: r => .error (.atFirst .expectedColon (c :: r))

mutual

/-- **Reads a value** off the front of a text. -/
def readTree (use : Use) (s : List Char) : Except Fault (Step s Tree) :=
  match h : skipBlanks s with
  | [] => .error (.before .eofValue [])
  | c :: r =>
    have hr : r.length < s.length := lt_of_skipBlanks h
    if c = 'n' then do
      let t ← readWord ['u', 'l', 'l'] r
      return (t.step c .null).widen (cons_le_of_skipBlanks h)
    else if c = 't' then do
      let t ← readWord ['r', 'u', 'e'] r
      return (t.step c (.bool true)).widen (cons_le_of_skipBlanks h)
    else if c = 'f' then do
      let t ← readWord ['a', 'l', 's', 'e'] r
      return (t.step c (.bool false)).widen (cons_le_of_skipBlanks h)
    else if c = '"' then do
      let x ← readString use r
      return (x.map fun cs => .string (String.ofList cs)).within hr
    else if c = '-' then do
      let x ← readNumberFor use true r
      return (x.map .number).within hr
    else if c.isDigit then do
      let x ← readNumberFor use false (c :: r)
      return (x.map .number).widen (cons_le_of_skipBlanks h)
    else if c = '[' then
      match h1 : skipBlanks r with
      | [] => .error (.before .eofList [])
      | ']' :: r' => .ok ((Step.mk (.list []) r' (lt_of_skipBlanks h1)).within hr)
      | _ => do
        let x ← readItems use r
        return (x.map .list).within hr
    else if c = '\x7b' then
      match h1 : skipBlanks r with
      | '\x7d' :: r' => .ok ((Step.mk (.object []) r' (lt_of_skipBlanks h1)).within hr)
      | _ => do
        let x ← readMembers use .eofObject r
        return (x.map .object).within hr
    else .error (.atFirst .expectedValue (c :: r))
termination_by 2 * s.length

/-- Reads the elements of an array, of which there is at least one, and its closing bracket. -/
def readItems (use : Use) (s : List Char) : Except Fault (Step s (List Tree)) := do
  let ⟨item, r, h⟩ ← readTree use s
  match h1 : skipBlanks r with
  | [] => throw (.before .eofList [])
  | ']' :: r' => return (Step.mk [item] r' (lt_of_skipBlanks h1)).within h
  | ',' :: r' =>
    have hr : r'.length < s.length := Nat.lt_trans (lt_of_skipBlanks h1) h
    if use = .wanted ∧ (skipBlanks r').head? = some ']' then
      throw (.atFirst .trailingComma (skipBlanks r'))
    let x ← readItems use r'
    return (x.map (item :: ·)).within hr
  | c :: r' => throw (.atFirst .expectedListEnd (c :: r'))
termination_by 2 * s.length + 1

/-- Reads the members of an object, of which there is at least one, and its closing brace. -/
def readMembers (use : Use) (ended : Cause) (s : List Char) :
    Except Fault (Step s (List (String × Tree))) := do
  let ⟨k, r1, h1⟩ ← readKey use ended s
  let ⟨_, r2, h2⟩ ← readColon r1
  let ⟨v, r, h3⟩ ← readTree use r2
  match h4 : skipBlanks r with
  | [] => throw (.before .eofObject [])
  | '\x7d' :: r' =>
    return (((Step.mk [(k, v)] r' (lt_of_skipBlanks h4)).within h3).within h2).within h1
  | ',' :: r' =>
    have hr : r'.length < s.length :=
      Nat.lt_trans (Nat.lt_trans (Nat.lt_trans (lt_of_skipBlanks h4) h3) h2) h1
    if use = .wanted ∧ (skipBlanks r').head? = some '\x7d' then
      throw (.atFirst .trailingComma (skipBlanks r'))
    let x ← readMembers use (endAfterComma use) r'
    return (x.map ((k, v) :: ·)).within hr
  | c :: r' => throw (.atFirst .expectedObjectEnd (c :: r'))
termination_by 2 * s.length + 1

end

/-- Takes a value off the front of a text, checking its form only. -/
def skipValue (s : List Char) : Except Fault (Step s Unit) := do
  let ⟨_, r, h⟩ ← readTree .skipped s
  return ⟨(), r, h⟩

/-- Accepts the rest of a text if nothing but blanks is left. -/
def readEnd (s : List Char) : Except Fault Unit :=
  match skipBlanks s with
  | [] => .ok ()
  | c :: r => .error (.atFirst .trailingCharacters (c :: r))

end PaneRelay.Json
