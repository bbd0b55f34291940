import PaneRelay.Toml.Scalar

/-! # TOML documents

A document is a list of lines: headers, which name the table that the lines after them fill, and
entries with dotted keys. A table may be opened once by a header, and one that a header or a value
made is not added to by dotted keys.

* `Node`: what a table holds while a document is read.
* `descend`: changes a table at a path.
* `readValue`: a value of any kind.
* `parse`: reads a document. -/

namespace PaneRelay.Toml

open PaneRelay.Config PaneRelay.Text

/-! ## Tables that grow -/

/-- **What stands under a key** while a document is read. -/
inductive Node where
  /-- A value, to which nothing is added. -/
  | value (v : Setting)
  /-- A table: whether it was made on the way to another, whether by a dotted key, and its
  entries. -/
  | table (implied dotted : Bool) (entries : List (String × Node))
  /-- The elements of a list of tables, each with its entries, the newest first. -/
  | tables (elements : List (List (String × Node)))

/-- The entries of a table. -/
abbrev Entries := List (String × Node)

/-- Puts an entry in place of the one that has its key, or at the end. -/
def Entries.put (k : String) (n : Node) : Entries → Entries
  | [] => [(k, n)]
  | (k', n') :: rest => if k' = k then (k, n) :: rest else (k', n') :: Entries.put k n rest

/-- **Changes the table at a path.** Tables on the way are made if they are missing; `dotted` says
that the path is that of a dotted key. The change is told whether its table was made by one. -/
def descend (dotted : Bool) (change : Bool → Entries → Option Entries) :
    (path : List String) → (made : Bool) → Entries → Option Entries
  | [], made, es => change made es
  | k :: ks, _, es =>
    match es.lookup k with
    | none => do
      let sub ← descend dotted change ks dotted []
      return es.put k (.table true dotted sub)
    | some (.value _) => none
    | some (.table implied made sub) => do
      if dotted && !implied then none
      let sub ← descend dotted change ks made sub
      return es.put k (.table implied made sub)
    | some (.tables []) => none
    | some (.tables (last :: before)) => do
      let last ← descend dotted change ks false last
      return es.put k (.tables (last :: before))

/-- Adds an entry to a table; `direct` says that its key has one part. -/
def addEntry (direct : Bool) (k : String) (v : Setting) (made : Bool) (es : Entries) :
    Option Entries :=
  if made = direct then none
  else if (es.lookup k).isSome then none
  else some (es.put k (.value v))

/-- **Adds an entry** with a dotted key. -/
def enter (key : List String) (v : Setting) (made : Bool) (es : Entries) : Option Entries :=
  match key.getLast? with
  | none => none
  | some k => descend true (addEntry key.dropLast.isEmpty k v) key.dropLast made es

/-- Opens the table that a header names. -/
def openTable (k : String) (_ : Bool) (es : Entries) : Option Entries :=
  match es.lookup k with
  | none => some (es.put k (.table false false []))
  | some (.table true false sub) => some (es.put k (.table false false sub))
  | some _ => none

/-- Opens a new element of the list of tables that a header names. -/
def openElement (k : String) (_ : Bool) (es : Entries) : Option Entries :=
  match es.lookup k with
  | none => some (es.put k (.tables [[]]))
  | some (.tables elements) => some (es.put k (.tables ([] :: elements)))
  | some _ => none

mutual

/-- A node as a setting. -/
def Node.setting : Node → Setting
  | .value v => v
  | .table _ _ es => .table (settings es)
  | .tables elements => .list (tableList elements).reverse

/-- Entries as settings. -/
def settings : List (String × Node) → List (String × Setting)
  | [] => []
  | (k, n) :: rest => (k, n.setting) :: settings rest

/-- Elements as settings. -/
def tableList : List (List (String × Node)) → List Setting
  | [] => []
  | es :: rest => .table (settings es) :: tableList rest

end

/-! ## Values -/

/-- How deep values may be nested. -/
def maxDepth : Nat := 79

mutual

/-- **Reads a value.** -/
def readValue (depth : Nat) (s : List Char) : Option (Step s Setting) :=
  match s with
  | [] => none
  | c :: r =>
    if c = '"' ∨ c = '\'' then
      (readString (c :: r)).map fun ⟨t, u, h⟩ => ⟨.text t, u, h⟩
    else if c = '[' then
      match depth with
      | 0 => none
      | depth + 1 => do
        let ⟨items, t, h⟩ ← readItems depth r
        return (Step.mk (.list items) t h).after c
    else if c = '\x7b' then
      match depth with
      | 0 => none
      | depth + 1 =>
        let ⟨t, h⟩ := skipGaps r
        match take? '\x7d' t with
        | some x => some (((x.map fun _ => .table []).widen h).after c)
        | none => do
          let x ← readPairs depth [] t
          return ((x.map fun es => .table (settings es)).widen h).after c
    else readScalar (c :: r)
termination_by (s.length, 0)

/-- Reads the elements of an array, and its closing bracket. -/
def readItems (depth : Nat) (s : List Char) : Option (Step s (List Setting)) :=
  let ⟨r, h⟩ := skipLines false s
  match take? ']' r with
  | some x => some ((x.map fun _ => []).widen h)
  | none => do
    let ⟨v, t, h1⟩ ← readValue depth r
    let ⟨u, h2⟩ := skipLines false t
    match take? ',' u with
    | some ⟨_, w, h3⟩ => do
      let x ← readItems depth w
      return ((((x.map (v :: ·)).within h3).widen h2).within h1).widen h
    | none => do
      let x ← take? ']' u
      return (((x.map fun _ => [v]).widen h2).within h1).widen h
termination_by (s.length, 1)
decreasing_by
  · rw [Prod.lex_def]; simp only; omega
  · rw [Prod.lex_def]; simp only; omega

/-- Reads the entries of an inline table, of which there is at least one, and its closing brace. -/
def readPairs (depth : Nat) (es : Entries) (s : List Char) : Option (Step s Entries) := do
  let ⟨key, t, h⟩ ← readKey s
  let ⟨_, u, h1⟩ ← take? '=' t
  let ⟨w, h2⟩ := skipGaps u
  let ⟨v, x, h3⟩ ← readValue depth w
  let es ← enter key v false es
  let ⟨y, h4⟩ := skipGaps x
  match take? ',' y with
  | some ⟨_, z, h5⟩ => do
    let all ← readPairs depth es z
    return (((((all.within h5).widen h4).within h3).widen h2).within h1).within h
  | none => do
    let z ← take? '\x7d' y
    return (((((z.map fun _ => es).widen h4).within h3).widen h2).within h1).within h
termination_by (s.length, 1)
decreasing_by
  · rw [Prod.lex_def]; simp only; omega
  · rw [Prod.lex_def]; simp only; omega

end

/-! ## Lines -/

/-- **A line of a document.** -/
inductive Line where
  /-- A header, and whether it opens an element of a list of tables. -/
  | header (element : Bool) (path : List String)
  /-- An entry. -/
  | entry (key : List String) (v : Setting)

/-- Reads the name in a header, as many closing brackets as there were opening ones, and the end of
the line. -/
def readHeader (element : Bool) (s : List Char) : Option (Step s Line) := do
  let ⟨path, t, h⟩ ← readKey s
  let ⟨_, u, h1⟩ ← take? ']' t
  let ⟨w, h2⟩ ← if element then (take? ']' u).map Step.left else some (.whole u)
  let x ← finishLine w
  return ((Step.mk (.header element path) t h).leaving ((x.within h2).within (Nat.le_of_lt h1)))

/-- Reads a line that starts with something. -/
def readLine (s : List Char) : Option (Step s Line) :=
  match s with
  | [] => none
  | '[' :: '[' :: r => (readHeader true r).map fun x => (x.after '[').after '['
  | '[' :: r => (readHeader false r).map (Step.after '[')
  | c :: r => do
    let ⟨key, t, h⟩ ← readKey (c :: r)
    let ⟨_, u, h1⟩ ← take? '=' t
    let ⟨w, h2⟩ := skipGaps u
    let ⟨v, x, h3⟩ ← readValue maxDepth w
    let y ← finishLine x
    return ((((Step.mk (.entry key v) x h3).leaving y).widen h2).within h1).within h

/-- Reads all lines. -/
def readLines (s : List Char) : Option (List Line) :=
  let ⟨r, _⟩ := skipLines false s
  if r.isEmpty then some []
  else do
    let ⟨l, t, _⟩ ← readLine r
    return l :: (← readLines t)
termination_by s.length

/-! ## Documents -/

/-- Adds a line to a document whose current table has a path. -/
def addLine (path : List String) (es : Entries) : Line → Option (List String × Entries)
  | .entry key v => (descend false (enter key v) path false es).map fun es => (path, es)
  | .header element new =>
    match new.getLast? with
    | none => none
    | some k =>
      let opened := if element then openElement k else openTable k
      (descend false opened new.dropLast false es).map fun es => (new, es)

/-- The document that lines make. -/
def build : List String → Entries → List Line → Option Entries
  | _, es, [] => some es
  | path, es, l :: ls =>
    match addLine path es l with
    | some (path, es) => build path es ls
    | none => none

/-- **Reads a document.** A byte order mark may come first. -/
def parse (text : String) : Option Setting := do
  let cs := match text.toList with
    | c :: r => if c.toNat = 0xFEFF then r else c :: r
    | [] => []
  let lines ← readLines cs
  let es ← build [] [] lines
  if lines.all (fun l => match l with
    | .entry key _ => key.length ≤ maxDepth
    | .header _ path => path.length ≤ maxDepth) then return .table (settings es)
  else none

end PaneRelay.Toml
