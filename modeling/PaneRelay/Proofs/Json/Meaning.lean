import PaneRelay.Proofs.Json.Grammar
import PaneRelay.Json.Shape

/-! # What a JSON value means where a shape is expected

A value is read as a shape expects it, or not at all. A record may be an object, whose members count
by their keys and not by their order, or an array of its fields. In an object each field has one
member, or none if it has a default; members that name no field do not count.

* `Shape.reading`: the value that is read.
* `Shape.keyed`: no two fields of a record have one key.
* `Shape.induct`: induction on shapes.
* `settle`, `settle_member`: what members mean after some fields were read, and one step of it. -/

namespace PaneRelay.Json

/-- The string that a value is. -/
def Datum.string? : Datum → Option String
  | .string a => some a
  | _ => none

/-- The strings that an array is made of. -/
def Datum.strings? : Datum → Option (List String)
  | .list ds => ds.mapM Datum.string?
  | _ => none

/-- The whole number that a value is, if it is in a range. -/
def Datum.word? (w : Width) : Datum → Option Nat
  | .number x => x.value.toOption >>= fun n => (fitWord w n).toOption
  | _ => none

/-- The values of the members with a key. -/
def valuesOf (key : String) (ms : List (String × Datum)) : List Datum :=
  (ms.filter fun m => m.1 = key).map (·.2)

/-- **What the values found for a field mean:** the only one, or the default if there is none. -/
def fieldReading (default? : Option Value) (reading : Datum → Option Value) :
    List Datum → Option Value
  | [] => default?
  | [d] => reading d
  | _ => none

mutual

/-- **What a value means** where a shape is expected. -/
def Shape.reading : Shape → Datum → Option Value
  | .word w, d => (d.word? w).map Value.word
  | .text, d => d.string?.map Value.text
  | .texts, d => d.strings?.map Value.texts
  | .record _ fields, .object ms => (membersReading fields ms).map Value.record
  | .record _ fields, .list ds => (itemsReading fields ds).map Value.record
  | _, _ => none

/-- The fields of a record written as an object. -/
def membersReading : List (String × Shape × Option Value) → List (String × Datum) →
    Option (List Value)
  | [], _ => some []
  | (key, shape, default?) :: fields, ms => do
    let v ← fieldReading default? shape.reading (valuesOf key ms)
    let vs ← membersReading fields ms
    return v :: vs

/-- The fields of a record written as an array. -/
def itemsReading : List (String × Shape × Option Value) → List Datum → Option (List Value)
  | [], [] => some []
  | [], _ :: _ => none
  | (_, _, default?) :: fields, [] => do
    let v ← default?
    let vs ← itemsReading fields []
    return v :: vs
  | (_, shape, _) :: fields, d :: ds => do
    let v ← shape.reading d
    let vs ← itemsReading fields ds
    return v :: vs

end

/-! ### What is read -/

theorem string?_eq_some {d : Datum} {a : String} : d.string? = some a ↔ d = .string a := by
  cases d <;> simp [Datum.string?]

theorem mapM_string?_eq_some {ds : List Datum} {l : List String} :
    ds.mapM Datum.string? = some l ↔ ds = l.map .string := by
  induction ds generalizing l with
  | nil => cases l <;> simp
  | cons d ds ih =>
    cases l with
    | nil => simp [List.mapM_cons, Option.bind_eq_some_iff]
    | cons a l => simp [List.mapM_cons, Option.bind_eq_some_iff, string?_eq_some, ih]

theorem strings?_eq_some {d : Datum} {l : List String} :
    d.strings? = some l ↔ d = .list (l.map .string) := by
  cases d <;> simp [Datum.strings?, mapM_string?_eq_some]

theorem fieldReading_eq_some {default? : Option Value} {reading : Datum → Option Value}
    {ds : List Datum} {v : Value} : fieldReading default? reading ds = some v ↔
      ds = [] ∧ default? = some v ∨ ∃ d, ds = [d] ∧ reading d = some v := by
  match ds with
  | [] => simp [fieldReading]
  | [d] => simp [fieldReading]
  | _ :: _ :: _ => simp [fieldReading]

/-! ### Shapes -/

/-- Induction on shapes: what holds of the shapes of a record's fields holds of the record. -/
theorem Shape.induct {motive : Shape → Prop} (word : ∀ w, motive (.word w)) (text : motive .text)
    (texts : motive .texts)
    (record : ∀ name fields, (∀ f ∈ fields, motive f.2.1) → motive (.record name fields))
    (shape : Shape) : motive shape := by
  refine @Shape.rec motive (fun fields => ∀ f ∈ fields, motive f.2.1) (fun f => motive f.2.1)
    (fun p => motive p.1) word text texts record ?_ ?_ (fun _ _ h => h) (fun _ _ h => h) shape
  · exact fun f hf => nomatch hf
  · intro f fields hf hfields g hg
    obtain rfl | hg := List.mem_cons.mp hg
    · exact hf
    · exact hfields g hg

mutual

/-- **Whether the fields of a record differ in their keys**, in records inside of it too. -/
def Shape.keyed : Shape → Bool
  | .record _ fields => keyedAll fields
  | _ => true

/-- Whether some fields differ in their keys. -/
def keyedAll : List (String × Shape × Option Value) → Bool
  | [] => true
  | (key, shape, _) :: fields => shape.keyed && !(fields.map (·.1)).contains key && keyedAll fields

end

section
variable {key : String} {f : String × Shape × Option Value}
  {fields : List (String × Shape × Option Value)} {read : List (Option Value)} {d : Datum}
  {ms : List (String × Datum)}

theorem keyedAll_cons (h : keyedAll (f :: fields) = true) :
    f.2.1.keyed = true ∧ f.1 ∉ fields.map (·.1) ∧ keyedAll fields = true := by
  simp only [keyedAll, Bool.and_eq_true, Bool.not_eq_true', List.contains_eq_mem,
    decide_eq_false_iff_not] at h
  exact ⟨h.1.1, h.1.2, h.2⟩

theorem keyed_of_mem (h : keyedAll fields = true) (hf : f ∈ fields) : f.2.1.keyed = true := by
  induction fields with
  | nil => cases hf
  | cons g fields ih =>
    obtain ⟨hg, -, hrest⟩ := keyedAll_cons h
    obtain rfl | hf := List.mem_cons.mp hf
    · exact hg
    · exact ih hrest hf

/-! ### Fields that were read before -/

/-- What the values found for a field mean, if it may have been read before. -/
def slotReading (read? default? : Option Value) (reading : Datum → Option Value) :
    List Datum → Option Value :=
  match read? with
  | none => fieldReading default? reading
  | some v => fieldReading (some v) fun _ => none

theorem slotReading_again {v : Value} {default? : Option Value} {reading : Datum → Option Value}
    {ds : List Datum} : slotReading (some v) default? reading (d :: ds) = none := by
  cases ds <;> rfl

/-- **What members mean after some fields were read.** -/
def settle : List (String × Shape × Option Value) → List (Option Value) →
    List (String × Datum) → Option (List Value)
  | [], _, _ => some []
  | (key, shape, default?) :: fields, read, ms => do
    let v ← slotReading read.head?.join default? shape.reading (valuesOf key ms)
    let vs ← settle fields (read.drop 1) ms
    return v :: vs

theorem settle_none : settle fields (fields.map fun _ => none) ms = membersReading fields ms := by
  induction fields with
  | nil => rfl
  | cons f fields ih =>
    show (slotReading none _ _ _ >>= _) = _
    simp only [List.map_cons, List.drop_one, List.tail_cons, ih]
    rfl

theorem settle_nil : (fillFields fields read).toOption = settle fields read [] := by
  induction fields generalizing read with
  | nil => rfl
  | cons f fields ih =>
    obtain ⟨key, shape, default?⟩ := f
    have hslot : slotReading read.head?.join default? shape.reading (valuesOf key []) =
        (read.head?.join <|> default?) := by
      cases read.head?.join <;> rfl
    simp only [settle, hslot, ← ih, fillFields]
    cases read.head?.join <|> default? with
    | none => rfl
    | some v => cases fillFields fields (read.drop 1) <;> rfl

theorem valuesOf_self : valuesOf key ((key, d) :: ms) = d :: valuesOf key ms := by
  simp [valuesOf]

theorem valuesOf_ne {other : String} (h : key ≠ other) :
    valuesOf other ((key, d) :: ms) = valuesOf other ms := by
  simp [valuesOf, h]

/-- A member whose key is not known does not count. -/
theorem settle_unknown (h : key ∉ fields.map (·.1)) :
    settle fields read ((key, d) :: ms) = settle fields read ms := by
  induction fields generalizing read with
  | nil => rfl
  | cons f fields ih =>
    simp only [List.map_cons, List.mem_cons, not_or] at h
    simp only [settle, valuesOf_ne h.1, ih h.2]

/-- **A member counts for its field**, which must not have been read before. -/
theorem settle_member (hkeys : keyedAll fields = true) (hlen : read.length = fields.length)
    {i : Nat} (hf : fields[i]? = some f) (hread : read[i]?.join = none) :
    settle fields read ((f.1, d) :: ms) =
      (f.2.1.reading d >>= fun v => settle fields (read.set i (some v)) ms) := by
  induction fields generalizing i read with
  | nil => cases hf
  | cons g fields ih =>
    obtain ⟨-, hne, hrest⟩ := keyedAll_cons hkeys
    obtain ⟨x, read, rfl⟩ := List.exists_cons_of_length_eq_add_one hlen
    cases i with
    | zero =>
      cases hf
      -- the field itself; the fields behind it do not have its key
      obtain rfl : x = none := by simpa using hread
      simp only [settle, valuesOf_self, List.drop_one, List.tail_cons, settle_unknown hne,
        List.set_cons_zero, List.head?_cons, Option.join_some]
      cases valuesOf f.1 ms with
      | nil => rfl
      | cons _ _ =>
        simp only [slotReading_again]
        cases f.2.1.reading d <;> rfl
    | succ i =>
      -- another field before it, which does not see the member
      have hfg : f.1 ≠ g.1 := by
        rintro heq
        exact hne (heq ▸ List.mem_map_of_mem (List.mem_of_getElem? hf))
      have hx := ih hrest (Nat.succ.inj hlen) hf hread
      simp only [settle, valuesOf_ne hfg, List.drop_one, List.tail_cons, hx, List.set_cons_succ,
        List.head?_cons]
      cases f.2.1.reading d <;> cases slotReading _ _ _ _ <;> rfl

/-- A field that was read must not be found again. -/
theorem settle_again {i : Nat} (hf : fields[i]? = some f) {v : Value}
    (hread : read[i]?.join = some v) : settle fields read ((f.1, d) :: ms) = none := by
  induction fields generalizing i read with
  | nil => cases hf
  | cons g fields ih =>
    cases i with
    | zero =>
      cases hf
      have hhead : read.head?.join = some v := by rw [← hread, List.head?_eq_getElem?]
      simp only [settle, hhead, valuesOf_self, slotReading_again]
      rfl
    | succ i =>
      have hdrop : (read.drop 1)[i]?.join = some v := by
        rw [← hread, List.getElem?_drop, Nat.add_comm]
      simp only [settle, ih hf hdrop]
      cases slotReading _ _ _ _ <;> rfl

end

end PaneRelay.Json
