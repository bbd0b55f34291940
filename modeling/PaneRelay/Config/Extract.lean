import PaneRelay.Config.Setting
import PaneRelay.Json.Shape

/-! # Records out of settings

A record is taken out of a tree of settings field by field. A field that is missing has its default,
and keys that no field has are left aside. A record may also be written as a list of its fields in
order.

* `Field`, `Content`: what a field holds, and what was found.
* `Refusal`: why a setting is refused, and `Rejection`: where.
* `extract`: the contents of a record's fields. -/

namespace PaneRelay.Config

open PaneRelay.Json (Width)

/-- **What a field holds.** -/
inductive Field where
  /-- A whole number in a range. -/
  | word (w : Width)
  /-- A text, or nothing; `what` is what it is called in messages. -/
  | text (what : String)
  /-- Texts. -/
  | texts
  /-- One of some words; `name` is what the choice is called in messages. -/
  | choice (name : String) (words : List String)
deriving DecidableEq, Repr

/-- **What was found in a field.** -/
inductive Content where
  /-- A whole number. -/
  | word (n : Nat)
  /-- A text. -/
  | text (s : String)
  /-- Texts. -/
  | texts (l : List String)
  /-- The index of a word. -/
  | choice (i : Nat)
deriving DecidableEq, Repr

/-- **Why a setting is refused.** -/
inductive Refusal where
  /-- A setting of another kind was wanted. -/
  | invalidType (found : Setting) (expected : String)
  /-- The setting does not fit. -/
  | invalidValue (found : Setting) (expected : String)
  /-- A word is none of those that may be chosen. -/
  | unknownVariant (word : String) (words : List String)

/-- Words in a list, quoted as messages have it. -/
def quotedWords (words : List String) : String :=
  String.intercalate ", " (words.map fun w => "`" ++ w ++ "`")

/-- The wording of a refusal. -/
def Refusal.message : Refusal → String
  | .invalidType found expected =>
    "invalid type: found " ++ found.describe ++ ", expected " ++ expected
  | .invalidValue found expected => "invalid value " ++ found.describe ++ ", expected " ++ expected
  | .unknownVariant word words =>
    "unknown variant: found `" ++ word ++ "`, expected `one of " ++ quotedWords words ++ "`"

/-- **A refusal at a path.** -/
structure Rejection where
  /-- Why. -/
  refusal : Refusal
  /-- Where. -/
  path : List String

/-- The same rejection seen from above. -/
def Rejection.under (k : String) (f : Rejection) : Rejection := { f with path := k :: f.path }

/-- A rejection right here. -/
def here (r : Refusal) : Rejection := ⟨r, []⟩

/-! ## Fields -/

/-- A whole number in a range. -/
def wordIn (w : Width) (v : Setting) (n : Int) : Except Rejection Content :=
  if 0 ≤ n ∧ n < w.bound then .ok (.word n.toNat) else .error (here (.invalidValue v w.name))

/-- A text. -/
def textOf (what : String) : Setting → Except Rejection String
  | .text s => .ok s
  | .char c => .ok (String.singleton c)
  | v => .error (here (.invalidType v what))

/-- The texts of a list; `i` is the index of the first. -/
def textsFrom (i : Nat) : List Setting → Except Rejection (List String)
  | [] => .ok []
  | v :: vs =>
    match textOf "a string" v with
    | .error f => .error (f.under (toString i))
    | .ok s => (textsFrom (i + 1) vs).map (s :: ·)

/-- The index of a word among those that may be chosen. -/
def indexOf (words : List String) (word : String) : Except Rejection Content :=
  match words.idxOf? word with
  | some i => .ok (.choice i)
  | none => .error (here (.unknownVariant word words))

/-- The first key of a table, in the order of keys. -/
def firstKey? (entries : List (String × Setting)) : Option (String × Setting) :=
  entries.foldl (fun best e =>
    match best with
    | none => some e
    | some b => if e.1 < b.1 then some e else some b) none

/-- A choice; a table may stand for the word that is its first key, if that is empty. -/
def choiceOf (name : String) (words : List String) (v : Setting) : Except Rejection Content :=
  match v with
  | .text s => indexOf words s
  | .table entries =>
    match firstKey? entries with
    | none => .error (here (.invalidType v name))
    | some (k, u) =>
      match indexOf words k with
      | .error f => .error f
      | .ok _ => .error ((here (.invalidType u "unit")).under k)
  | v => .error (here (.invalidType v name))

/-- **The content of a field.** -/
def Field.read (f : Field) (v : Setting) : Except Rejection Content :=
  match f with
  | .word w =>
    match v with
    | .signed n => wordIn w v n
    | .unsigned n => wordIn w v n
    | v => .error (here (.invalidType v w.name))
  | .text what => (textOf what v).map .text
  | .texts =>
    match v with
    | .list items => (textsFrom 0 items).map .texts
    | v => .error (here (.invalidType v "a sequence"))
  | .choice name words => choiceOf name words v

/-! ## Records -/

/-- The contents of fields in a table, each if it is there. -/
def readKeys (entries : List (String × Setting)) :
    List (String × Field) → Except Rejection (List (String × Content))
  | [] => .ok []
  | (k, f) :: fs =>
    match entries.lookup k with
    | none => readKeys entries fs
    | some v =>
      match f.read v with
      | .error e => .error (e.under k)
      | .ok c => (readKeys entries fs).map ((k, c) :: ·)

/-- The contents of fields in a list, as far as it goes; `i` is the index of the first. -/
def readIndices (i : Nat) :
    List Setting → List (String × Field) → Except Rejection (List (String × Content))
  | v :: vs, (k, f) :: fs =>
    match f.read v with
    | .error e => .error (e.under (toString i))
    | .ok c => (readIndices (i + 1) vs fs).map ((k, c) :: ·)
  | _, _ => .ok []

/-- Fields in the order of their keys, in which a table is gone through. -/
def byKey (fields : List (String × Field)) : List (String × Field) :=
  fields.mergeSort fun a b => a.1 ≤ b.1

/-- **The contents of a record's fields**, each that is there. `name` is what the record is called
in messages. -/
def extract (name : String) (fields : List (String × Field)) (v : Setting) :
    Except Rejection (List (String × Content)) :=
  match v with
  | .table entries => readKeys entries (byKey fields)
  | .list items => readIndices 0 items fields
  | v => .error (here (.invalidType v ("struct " ++ name)))

end PaneRelay.Config
