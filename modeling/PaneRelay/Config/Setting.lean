import PaneRelay.Text.Binary64
import PaneRelay.Text.Quoted

/-! # Settings

Every source of configuration gives a tree of settings. Trees are laid over each other: tables are
joined key by key, anything else is replaced.

* `Setting`: the tree.
* `Setting.laidOn`: one tree laid over another.
* `Setting.at?`: what a tree has at a path.
* `Setting.describe`: what a setting is called where another was wanted. -/

namespace PaneRelay.Config

open PaneRelay.Text

/-- **A setting.** -/
inductive Setting where
  /-- A text. -/
  | text (s : String)
  /-- A single character. -/
  | char (c : Char)
  /-- A truth value. -/
  | bool (b : Bool)
  /-- A whole number that may be negative. -/
  | signed (n : Int)
  /-- A whole number. -/
  | unsigned (n : Nat)
  /-- A number. -/
  | real (x : Binary64)
  /-- A list. -/
  | list (items : List Setting)
  /-- A table; no key stands twice in it. -/
  | table (entries : List (String × Setting))

namespace Setting

instance : Inhabited Setting := ⟨.table []⟩

/-- Puts an entry into a table, in place of the one that has its key. -/
def put (k : String) (v : Setting) : List (String × Setting) → List (String × Setting)
  | [] => [(k, v)]
  | (k', v') :: rest => if k' = k then (k, v) :: rest else (k', v') :: put k v rest

mutual

/-- **One setting laid over another.** -/
def laidOn (v u : Setting) : Setting :=
  match v with
  | .table entries =>
    match u with
    | .table below => .table (laidOnAll entries below)
    | _ => .table entries
  | v => v

/-- Entries laid over a table, each over the one with its key. -/
def laidOnAll (entries below : List (String × Setting)) : List (String × Setting) :=
  match entries with
  | [] => below
  | (k, v) :: rest =>
    let new := match below.lookup k with
      | some u => v.laidOn u
      | none => v
    laidOnAll rest (put k new below)

end

/-- What a setting has at a key: an entry of a table or, for the digits of an index, an element of a
list. -/
def child? (v : Setting) (k : String) : Option Setting :=
  match v with
  | .table entries => entries.lookup k
  | .list items => k.toNat?.bind fun i => items[i]?
  | _ => none

/-- **What a tree has at a path.** -/
def at? (v : Setting) : List String → Option Setting
  | [] => some v
  | k :: ks => (v.child? k).bind fun u => u.at? ks

/-- What a setting is called where another was wanted. -/
def describe : Setting → String
  | .text s => "string " ++ quoted s
  | .char c => "string " ++ quoted (String.singleton c)
  | .bool b => "bool " ++ toString b
  | .signed n => "signed int `" ++ toString n ++ "`"
  | .unsigned n => "unsigned int `" ++ toString n ++ "`"
  | .real x => "float `" ++ x.positional ++ "`"
  | .list _ => "sequence"
  | .table _ => "map"

end Setting

end PaneRelay.Config
