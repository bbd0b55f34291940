import PaneRelay.Json.Tree

/-! # JSON values of a known form

A reader that is told what to expect. A record may be written as an object, in which unknown keys
are skipped and a missing key takes its default, or as an array of its fields in order, of which the
last may be missing if they have defaults.

* `Shape`, `Value`: what is expected, and what was read.
* `readShape`: reads a value of a shape off the front of a text.
* `decode`: reads a whole text. -/

namespace PaneRelay.Json

open PaneRelay.Text

/-- **Ranges of whole numbers.** -/
inductive Width where
  /-- 16 bits. -/
  | bits16
  /-- 32 bits. -/
  | bits32
  /-- 64 bits. -/
  | bits64
  /-- 64 bits, for sizes. -/
  | size
deriving DecidableEq, Repr

/-- The number of values in a range. -/
def Width.bound : Width → Nat
  | .bits16 => 0x10000
  | .bits32 => 0x100000000
  | .bits64 => 0x10000000000000000
  | .size => 0x10000000000000000

/-- What a range is called in messages. -/
def Width.name : Width → String
  | .bits16 => "u16"
  | .bits32 => "u32"
  | .bits64 => "u64"
  | .size => "usize"

/-- **A value that was read.** -/
inductive Value where
  /-- A whole number. -/
  | word (n : Nat)
  /-- A string. -/
  | text (s : String)
  /-- Strings. -/
  | texts (l : List String)
  /-- The fields of a record, in order. -/
  | record (fields : List Value)

instance : Inhabited Value := ⟨.word 0⟩

/-- **What is expected.** -/
inductive Shape where
  /-- A whole number in a range. -/
  | word (w : Width)
  /-- A string. -/
  | text
  /-- An array of strings. -/
  | texts
  /-- A record: its name in messages, and its fields with their keys, shapes and defaults. -/
  | record (name : String) (fields : List (String × Shape × Option Value))

/-- What a shape is called in messages. -/
def Shape.expected : Shape → String
  | .word w => w.name
  | .text => "a string"
  | .texts => "a sequence"
  | .record name _ => "struct " ++ name

/-- A record with its number of fields, as messages name it. -/
def lengthExpected (name : String) (count : Nat) : String :=
  "struct " ++ name ++ " with " ++ toString count ++ (if count = 1 then " element" else " elements")

/-! ## Values of the wrong form -/

/-- The fault of a reading that was to fail: the reading's own, or else one after the value. -/
def afterScalar {s : List Char} {α : Type} (x : Except Fault (Step s α)) (found : α → Found)
    (expected : String) : Fault :=
  match x with
  | .error e => e
  | .ok ⟨a, r, _⟩ => .before (.invalidType (found a) expected) r

/-- The fault of a word that was to be another kind of value. -/
def afterWord (w r : List Char) (found : Found) (expected : String) : Fault :=
  match readWord w r with
  | .error e => e
  | .ok r' => .before (.invalidType found expected) r'.val

/-- **The fault of a value of the wrong kind** at the front of a text without leading blanks. A
scalar is read first and may itself be at fault. -/
def mismatch (expected : String) (s : List Char) : Fault :=
  match s with
  | [] => .before .eofValue []
  | c :: r =>
    if c = 'n' then afterWord ['u', 'l', 'l'] r .null expected
    else if c = 't' then afterWord ['r', 'u', 'e'] r (.bool true) expected
    else if c = 'f' then afterWord ['a', 'l', 's', 'e'] r (.bool false) expected
    else if c = '"' then
      afterScalar (readString .wanted r) (fun cs => .string (String.ofList cs)) expected
    else if c = '-' then afterScalar (readNumber true r) Found.number expected
    else if c.isDigit then afterScalar (readNumber false s) Found.number expected
    else if c = '[' then .before (.invalidType .sequence expected) s
    else if c = '\x7b' then .before (.invalidType .map expected) s
    else .atFirst .expectedValue s

/-- A number as a member of a range. -/
def fitWord (w : Width) : Number → Except Cause Nat
  | .whole n => if n < w.bound then .ok n else .error (.invalidValue (.number (.whole n)) w.name)
  | .minus n => .error (.invalidValue (.number (.minus n)) w.name)
  | .real x => .error (.invalidType (.number (.real x)) w.name)

/-- Fits a number that was read into a range. -/
def fitStep {s : List Char} (w : Width) (x : Step s Number) : Except Fault (Step s Nat) :=
  match fitWord w x.val with
  | .ok m => .ok ⟨m, x.rest, x.shorter⟩
  | .error c => .error (.before c x.rest)

/-! ## Between the elements of a wanted array or object -/

/-- Where the next element of an array starts, if there is one; the closing bracket stays. -/
def nextElement (first : Bool) (s : List Char) : Except Fault (Option (Rest s)) :=
  match h : skipBlanks s with
  | [] => .error (.before .eofList [])
  | c :: r =>
    if c = ']' then .ok none
    else if first then .ok (some ⟨c :: r, cons_le_of_skipBlanks h⟩)
    else if c = ',' then
      match h1 : skipBlanks r with
      | [] => .error (.before .eofValue [])
      | d :: r' =>
        if d = ']' then .error (.atFirst .trailingComma (d :: r'))
        else .ok (some (Rest.within ⟨d :: r', cons_le_of_skipBlanks h1⟩ (le_of_skipBlanks h)))
    else .error (.atFirst .expectedListEnd (c :: r))

/-- Takes the closing bracket of an array all of whose fields were read. -/
def endList (s : List Char) : Except Fault (Step s Unit) :=
  match h : skipBlanks s with
  | [] => .error (.before .eofList [])
  | c :: r =>
    if c = ']' then .ok ⟨(), r, lt_of_skipBlanks h⟩
    else if c = ',' then
      let r' := skipBlanks r
      if r'.head? = some ']' then .error (.atFirst .trailingComma r')
      else .error (.atFirst .trailingCharacters r')
    else .error (.atFirst .trailingCharacters (c :: r))

/-- Reads the key of the next member of an object, if there is one; the closing brace stays. -/
def nextKey (first : Bool) (s : List Char) : Except Fault (Option (Step s String)) :=
  match h : skipBlanks s with
  | [] => .error (.before .eofObject [])
  | c :: r =>
    if c = '\x7d' then .ok none
    else if first then do
      let x ← readKey .wanted .eofObject (c :: r)
      return some (x.widen (cons_le_of_skipBlanks h))
    else if c = ',' then
      if (skipBlanks r).head? = some '\x7d' then .error (.atFirst .trailingComma (skipBlanks r))
      else do
        let x ← readKey .wanted .eofValue r
        return some (x.widen (le_of_skipBlanks h))
    else .error (.atFirst .expectedObjectEnd (c :: r))

/-- The rest after the closing bracket or brace `close`, if that comes next. -/
def pastClosing (close : Char) (s : List Char) : List Char :=
  match skipBlanks s with
  | [] => []
  | c :: r => if c = close then r else c :: r

/-- The fields of a record of which some were read: the others take their defaults. -/
def fillFields : List (String × Shape × Option Value) → List (Option Value) →
    Except Cause (List Value)
  | [], _ => .ok []
  | (key, _, default?) :: fields, read =>
    match read.head?.join <|> default? with
    | none => .error (.missingField key)
    | some v => do
      let vs ← fillFields fields (read.drop 1)
      return v :: vs

/-- The defaults of the fields from number `index` on. -/
def fillTail (name : String) (count : Nat) :
    Nat → List (String × Shape × Option Value) → Except Cause (List Value)
  | _, [] => .ok []
  | index, (_, _, default?) :: fields =>
    match default? with
    | none => .error (.invalidLength index (lengthExpected name count))
    | some v => do
      let vs ← fillTail name count (index + 1) fields
      return v :: vs

/-! ## The reader -/

/-- Reads a string value. -/
def readText (s : List Char) : Except Fault (Step s String) :=
  match h : skipBlanks s with
  | [] => .error (.before .eofValue [])
  | c :: r =>
    if c = '"' then do
      let x ← readString .wanted r
      return (x.map String.ofList).widen (le_of_skipBlanks h)
    else .error (mismatch Shape.text.expected (c :: r))

/-- Reads the elements of an array of strings, and its closing bracket. -/
def readTexts (first : Bool) (s : List Char) : Except Fault (Step s (List String)) := do
  match ← nextElement first s with
  | none =>
    let ⟨_, r, h⟩ ← endList s
    return ⟨[], r, h⟩
  | some ⟨r, h⟩ =>
    let ⟨t, r1, h1⟩ ← readText r
    let ⟨l, r2, h2⟩ ← readTexts false r1
    return ((Step.mk (t :: l) r2 h2).within h1).widen h
termination_by s.length

/-- Reads an array of strings. -/
def readTextArray (s : List Char) : Except Fault (Step s (List String)) :=
  match h : skipBlanks s with
  | [] => .error (.before .eofValue [])
  | c :: r =>
    if c = '[' then do
      let x ← readTexts true r
      return x.widen (le_of_skipBlanks h)
    else .error (mismatch Shape.texts.expected (c :: r))

/-- Reads a number in a range. -/
def readRange (w : Width) (s : List Char) : Except Fault (Step s Nat) := do
  match h : skipBlanks s with
  | [] => throw (.before .eofValue [])
  | c :: r =>
    if c = '-' then
      let x ← readNumber true r
      fitStep w (x.widen (le_of_skipBlanks h))
    else if c.isDigit then
      let x ← readNumber false (c :: r)
      fitStep w (x.widen (cons_le_of_skipBlanks h))
    else throw (mismatch w.name (c :: r))

mutual

/-- **Reads a value of a shape** off the front of a text. -/
def readShape (shape : Shape) (s : List Char) : Except Fault (Step s Value) :=
  match shape with
  | .word w => do
    let ⟨n, r, h⟩ ← readRange w s
    return ⟨.word n, r, h⟩
  | .text => do
    let ⟨t, r, h⟩ ← readText s
    return ⟨.text t, r, h⟩
  | .texts => do
    let ⟨l, r, h⟩ ← readTextArray s
    return ⟨.texts l, r, h⟩
  | .record name fields =>
    match h : skipBlanks s with
    | [] => .error (.before .eofValue [])
    | c :: r =>
      have hr : r.length < s.length := lt_of_skipBlanks h
      if c = '[' then do
        let (vs, ⟨r1, h1⟩) ← readFields name fields.length true 0 fields r
        let ⟨_, r2, h2⟩ ← endList r1
        return ((Step.mk (.record vs) r2 h2).widen h1).within hr
      else if c = '\x7b' then do
        let ⟨vs, r', h'⟩ ← readRecord fields true (fields.map fun _ => none) r
        return (Step.mk (.record vs) r' h').within hr
      else .error (mismatch ("struct " ++ name) (c :: r))
termination_by 2 * s.length

/-- Reads the fields of a record written as an array, from number `index` on. -/
def readFields (name : String) (count : Nat) (first : Bool) (index : Nat)
    (fields : List (String × Shape × Option Value)) (s : List Char) :
    Except Fault (List Value × Rest s) := do
  match fields with
  | [] => return ([], .whole s)
  | (key, shape, default?) :: fields' =>
    match ← nextElement first s with
    | none =>
      match fillTail name count index ((key, shape, default?) :: fields') with
      | .ok vs => return (vs, .whole s)
      | .error c => throw (.before c (pastClosing ']' s))
    | some ⟨r, h⟩ =>
      let ⟨v, r1, h1⟩ ← readShape shape r
      let (vs, ⟨r2, h2⟩) ← readFields name count false (index + 1) fields' r1
      return (v :: vs, ((Rest.within ⟨r2, h2⟩ (Nat.le_of_lt h1)).within h))
termination_by 2 * s.length + 1

/-- Reads the members of a record written as an object, and its closing brace; `read` holds the
fields read so far. -/
def readRecord (fields : List (String × Shape × Option Value)) (first : Bool)
    (read : List (Option Value)) (s : List Char) : Except Fault (Step s (List Value)) := do
  match ← nextKey first s with
  | none =>
    match h : skipBlanks s with
    | [] => throw (.before .eofObject [])
    | _ :: r =>
      match fillFields fields read with
      | .ok vs => return ⟨vs, r, lt_of_skipBlanks h⟩
      | .error c => throw (.before c r)
  | some ⟨key, r, h⟩ =>
    match fields.findIdx? (fun f => f.1 == key) with
    | none =>
      let ⟨_, r1, h1⟩ ← readColon r
      let ⟨_, r2, h2⟩ ← skipValue r1
      let x ← readRecord fields false read r2
      return ((x.within h2).within h1).within h
    | some i =>
      if (read[i]?.join).isSome then throw (.before (.duplicateField key) (pastClosing '\x7d' r))
      let ⟨_, r1, h1⟩ ← readColon r
      let ⟨v, r2, h2⟩ ← readShape ((fields[i]?.map (fun f => f.2.1)).getD .text) r1
      let x ← readRecord fields false (read.set i (some v)) r2
      return ((x.within h2).within h1).within h
termination_by 2 * s.length + 1

end

/-- **Reads a whole text** as a value of a shape. -/
def decode (shape : Shape) (text : String) : Except Fault Value := do
  let ⟨v, r, _⟩ ← readShape shape text.toList
  readEnd r
  return v

end PaneRelay.Json
