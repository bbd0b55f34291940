import Mathlib.Data.List.Forall2
import PaneRelay.Proofs.Json.Quoting
import PaneRelay.Proofs.Json.Reading
import PaneRelay.Proofs.Json.Shape

/-! # Compact texts are read back as they were written

The compact text of a value writes a value of the grammar: numbers by their digits, strings between
quotes, and the fields of a record as members, each under its key. Read where its own shape is
expected, that is the value again. So printing loses nothing, whatever the shape, as long as the keys
of a record differ and the numbers are in their ranges.

* `WritesWord`: a value that is a whole number, by its digits alone.
* `datum`: the value of the grammar that a compact text writes; `spells_printValue` shows that it
  does, `reading_datum` that it means what was printed.
* `decode_print`: a compact text is read back. -/

namespace PaneRelay.Json

variable {r : List Char} {n m : Nat} {w : Width} {ds : List Char} {d : Datum}

/-! ### Whole numbers -/

/-- **A value that is a whole number:** it has neither a sign nor a point nor an exponent. -/
def Datum.WritesWord (d : Datum) (n : Nat) : Prop :=
  ∃ ds, d = .number ⟨false, ds, none, none⟩ ∧ Nat.ofDigitChars 10 ds 0 = n

theorem le_ofDigitChars : m ≤ Nat.ofDigitChars 10 ds m := by
  induction ds generalizing m with
  | nil => exact Nat.le_of_eq Nat.ofDigitChars_nil.symm
  | cons c ds ih =>
    rw [Nat.ofDigitChars_cons]
    exact Nat.le_trans (by omega) ih

/-- Digits are counted as long as their number fits, by induction on them. -/
theorem foldl_wholeValue (h : Nat.ofDigitChars 10 ds m ≤ maxWhole) :
    ds.foldl (fun (n, lost) c =>
      if lost = 0 ∧ n * 10 + digitValue c ≤ maxWhole then (n * 10 + digitValue c, 0)
      else (n, lost + 1)) (m, 0) = (Nat.ofDigitChars 10 ds m, 0) := by
  induction ds generalizing m with
  | nil => rw [Nat.ofDigitChars_nil]; rfl
  | cons c ds ih =>
    have hstep : m * 10 + digitValue c = 10 * m + (c.toNat - '0'.toNat) := by
      rw [Nat.mul_comm]
      rfl
    rw [Nat.ofDigitChars_cons, ← hstep] at h ⊢
    have hfit : 0 = 0 ∧ m * 10 + digitValue c ≤ maxWhole := ⟨rfl, Nat.le_trans le_ofDigitChars h⟩
    rw [List.foldl_cons]
    dsimp only
    rw [if_pos hfit]
    exact ih h

theorem Width.bound_le (w : Width) : w.bound ≤ maxWhole + 1 := by
  cases w <;> decide

/-- **A whole number in a range is read.** -/
theorem Datum.WritesWord.word? (h : d.WritesWord n) (hn : n < w.bound) : d.word? w = some n := by
  obtain ⟨ds, rfl, rfl⟩ := h
  have hle : Nat.ofDigitChars 10 ds 0 ≤ maxWhole := by
    have := w.bound_le
    omega
  have hvalue : Numeral.value ⟨false, ds, none, none⟩ = .ok (.whole (Nat.ofDigitChars 10 ds 0)) := by
    unfold Numeral.value wholeValue
    rw [foldl_wholeValue hle]
    rfl
  have hfit : fitWord w (.whole (Nat.ofDigitChars 10 ds 0)) = .ok (Nat.ofDigitChars 10 ds 0) :=
    if_pos hn
  simp only [Datum.word?, hvalue, Except.toOption, Option.bind_eq_bind, Option.bind_some, hfit]

theorem whole_toDigits (n : Nat) (r : List Char) :
    Whole (Nat.toDigits 10 n) (Nat.toDigits 10 n ++ r) r := by
  have hall : ∀ c ∈ Nat.toDigits 10 n, c.isDigit = true := fun c hc =>
    Nat.isDigit_of_mem_toDigits (by decide) (by decide) hc
  -- only the number zero starts with a zero
  have hhead : n = 0 ∨ ∃ c ds, Nat.toDigits 10 n = c :: ds ∧ c ≠ '0' := by
    induction n using Nat.strongRecOn with
    | ind n ih =>
      rw [Nat.toDigits_eq_if (by decide)]
      split
      · next hlt =>
        by_cases h0 : n = 0
        · exact .inl h0
        · exact .inr ⟨_, [], rfl, by simpa using h0⟩
      · next hge =>
        obtain h0 | ⟨c, ds, heq, hc⟩ := ih (n / 10) (by omega) fun c hc =>
          Nat.isDigit_of_mem_toDigits (by decide) (by decide) hc
        · omega
        · exact .inr ⟨c, _, congrArg (· ++ _) heq, hc⟩
  obtain rfl | ⟨c, ds, heq, hc⟩ := hhead
  · exact .zero
  · rw [heq] at hall ⊢
    exact .digits hc ⟨rfl, List.cons_ne_nil _ _, hall⟩

/-! ### What a compact text writes -/

mutual

/-- **The value that the compact text of a value writes.** -/
def datum : Shape → Value → Datum
  | _, .word n => .number ⟨false, Nat.toDigits 10 n, none, none⟩
  | _, .text s => .string s
  | _, .texts l => .list (l.map .string)
  | .record _ fields, .record vs => .object (members fields vs)
  | _, .record _ => .object []

/-- The members that the fields of a record are written as. -/
def members : List (String × Shape × Option Value) → List Value → List (String × Datum)
  | (key, shape, _) :: fields, v :: vs => (key, datum shape v) :: members fields vs
  | _, _ => []

end

/-- Elements with commas between them are those of an array. -/
theorem spells_items {ps : List (Datum × List Char)}
    (h : ∀ p ∈ ps, ∀ r, Spells (.value p.1) (p.2 ++ r) r) :
    Spells (.items true (ps.map (·.1))) (commaSep (ps.map (·.2)) ++ ']' :: r) r := by
  induction ps with
  | nil => exact .endItems .done
  | cons p ps ih =>
    have hp := h p List.mem_cons_self
    have ih := ih fun q hq => h q (List.mem_cons_of_mem _ hq)
    cases ps with
    | nil => exact .item rfl (hp _) (.endItems .done)
    | cons q ps =>
      -- the next element comes first in the hypothesis, and behind a comma here
      cases ih with
      | item hs hq hrest =>
        obtain rfl := hs
        simp only [List.map_cons, commaSep, List.append_assoc, List.cons_append]
        exact .item rfl (hp _) (.item .done hq hrest)

/-- Members with commas between them are those of an object. -/
theorem spells_members {ps : List (String × Datum × List Char)}
    (h : ∀ p ∈ ps, ∀ r, Spells (.value p.2.1) (p.2.2 ++ r) r) :
    Spells (.members true (ps.map fun p => (p.1, p.2.1)))
      (commaSep (ps.map fun p => quoteChars p.1.toList ++ ':' :: p.2.2) ++ '\x7d' :: r) r := by
  induction ps with
  | nil => exact .endMembers .done
  | cons p ps ih =>
    have hp := h p List.mem_cons_self
    have ih := ih fun q hq => h q (List.mem_cons_of_mem _ hq)
    cases ps with
    | nil =>
      simp only [List.map_cons, List.map_nil, commaSep, List.append_assoc, List.cons_append]
      exact .member rfl (quoted_quoteChars p.1 _) .done (hp _) (.endMembers .done)
    | cons q ps =>
      cases ih with
      | member hs hk hcolon hq hrest =>
        obtain rfl := hs
        simp only [List.map_cons, commaSep, List.append_assoc, List.cons_append]
        exact .member rfl (quoted_quoteChars p.1 _) .done (hp _) (.member .done hk hcolon hq hrest)

section
variable {fields : List (String × Shape × Option Value)} {vs : List Value} {shape : Shape} {v : Value}

/-- The members of a record and their texts, side by side. -/
theorem exists_parts (h : ∀ f ∈ fields, ∀ v r,
      Spells (.value (datum f.2.1 v)) (printValue f.2.1 v ++ r) r) (vs : List Value) :
    ∃ ps : List (String × Datum × List Char), members fields vs = ps.map (fun p => (p.1, p.2.1)) ∧
      printFields fields vs = ps.map (fun p => quoteChars p.1.toList ++ ':' :: p.2.2) ∧
      ∀ p ∈ ps, ∀ r, Spells (.value p.2.1) (p.2.2 ++ r) r := by
  induction fields generalizing vs with
  | nil => exact ⟨[], by simp [members], by simp [printFields], by simp⟩
  | cons f fields ih =>
    obtain ⟨key, shape, default?⟩ := f
    cases vs with
    | nil => exact ⟨[], by simp [members], by simp [printFields], by simp⟩
    | cons v vs =>
      obtain ⟨ps, hm, hp, hs⟩ := ih (fun f hf => h f (List.mem_cons_of_mem _ hf)) vs
      refine ⟨(key, datum shape v, printValue shape v) :: ps, ?_, ?_, ?_⟩
      · rw [members, hm, List.map_cons]
      · rw [printFields, hp, List.map_cons]
      · rintro p hmem
        obtain rfl | hmem := List.mem_cons.mp hmem
        · exact h _ List.mem_cons_self v
        · exact hs p hmem

/-- Numbers and strings are written in the same way where any shape is expected. -/
theorem spells_flat (h : ∀ vs, v ≠ .record vs) (r : List Char) :
    Spells (.value (datum shape v)) (printValue shape v ++ r) r := by
  cases v with
  | word n =>
    rw [datum, printValue]
    exact .number .done (.plain rfl ⟨_, _, whole_toDigits n r, .absent, .absent⟩)
  | text s =>
    rw [datum, printValue]
    exact .string (quoted_quoteChars s r)
  | texts l =>
    have hall : ∀ p ∈ l.map fun s => (Datum.string s, quoteChars s.toList), ∀ r,
        Spells (.value p.1) (p.2 ++ r) r := by
      rintro p hp r
      obtain ⟨s, -, rfl⟩ := List.mem_map.mp hp
      exact .string (quoted_quoteChars s r)
    have hitems := spells_items (r := r) hall
    rw [List.map_map, List.map_map] at hitems
    rw [datum, printValue, List.cons_append, List.append_assoc]
    exact .list .done hitems
  | record vs => exact absurd rfl (h vs)

/-- **A compact text writes its value**, by induction on the shape. -/
theorem spells_printValue (shape : Shape) (v : Value) (r : List Char) :
    Spells (.value (datum shape v)) (printValue shape v ++ r) r := by
  induction shape using Shape.induct generalizing v r with
  | record name fields ih =>
    cases v with
    | record vs =>
      obtain ⟨ps, hm, hp, hs⟩ := exists_parts ih vs
      simp only [datum, printValue, hm, hp, List.cons_append, List.append_assoc, List.nil_append]
      exact .object .done (spells_members hs)
    | _ => exact spells_flat (by simp) r
  | _ =>
    cases v with
    | record vs =>
      simp only [datum, printValue]
      exact .object .done (.endMembers .done)
    | _ => exact spells_flat (by simp) r

/-! ### What it means -/

/-- **An object that has one value, or none, for each field** means those values and the defaults. -/
theorem membersReading_eq {ms : List (String × Datum)} (h : List.Forall₂ (fun f v =>
    fieldReading f.2.2 f.2.1.reading (valuesOf f.1 ms) = some v) fields vs) :
    membersReading fields ms = some vs := by
  induction h with
  | nil => rfl
  | @cons f v fields vs hf _ ih =>
    simp only [membersReading, hf, ih, Option.bind_eq_bind, Option.bind_some, Option.pure_def]

theorem valuesOf_members_of_not_mem {key : String} (h : key ∉ fields.map (·.1)) :
    valuesOf key (members fields vs) = [] := by
  induction fields generalizing vs with
  | nil => simp [members, valuesOf]
  | cons f fields ih =>
    simp only [List.map_cons, List.mem_cons, not_or] at h
    cases vs with
    | nil => simp [members, valuesOf]
    | cons v vs => rw [members, valuesOf_ne (Ne.symm h.1), ih h.2]

/-- Each field of a record is found under its key, and only once. -/
theorem forall_members (hkeys : keyedAll fields = true) (hfits : fitsAll fields vs = true)
    (h : ∀ f ∈ fields, ∀ v, fits f.2.1 v = true → f.2.1.reading (datum f.2.1 v) = some v)
    {ms : List (String × Datum)} (hms : ∀ key ∈ fields.map (·.1),
      valuesOf key ms = valuesOf key (members fields vs)) : List.Forall₂ (fun f v =>
    fieldReading f.2.2 f.2.1.reading (valuesOf f.1 ms) = some v) fields vs := by
  induction fields generalizing vs with
  | nil =>
    cases vs with
    | nil => exact .nil
    | cons v vs => exact absurd hfits (by simp [fitsAll])
  | cons f fields ih =>
    obtain ⟨key, shape, default?⟩ := f
    obtain ⟨-, hne, hrest⟩ := keyedAll_cons hkeys
    cases vs with
    | nil => exact absurd hfits (by simp [fitsAll])
    | cons v vs =>
      simp only [fitsAll, Bool.and_eq_true] at hfits
      refine .cons ?_ (ih hrest hfits.2 (fun f hf => h f (List.mem_cons_of_mem _ hf)) ?_)
      · have hself := hms key List.mem_cons_self
        rw [members, valuesOf_self, valuesOf_members_of_not_mem hne] at hself
        rw [hself]
        exact h _ List.mem_cons_self v hfits.1
      · rintro other hother
        have hother' : key ≠ other := by
          rintro rfl
          exact hne hother
        rw [hms other (List.mem_cons_of_mem _ hother), members, valuesOf_ne hother']

theorem fits_record {name : String} : fits (.record name fields) (.record vs) = fitsAll fields vs :=
  rfl

/-- **A value that fits is meant by what its compact text writes.** -/
theorem reading_datum (hkeys : shape.keyed = true) (hfits : fits shape v = true) :
    shape.reading (datum shape v) = some v := by
  induction shape using Shape.induct generalizing v with
  | word w =>
    cases v with
    | word n =>
      have hn : n < w.bound := by simpa [fits] using hfits
      have hwrites : (datum (.word w) (.word n)).WritesWord n :=
        ⟨_, by rw [datum], Nat.ofDigitChars_ten_toDigits⟩
      rw [Shape.reading, hwrites.word? hn]
      rfl
    | _ => exact absurd hfits (by simp [fits])
  | text =>
    cases v with
    | text s => rw [datum]; rfl
    | _ => exact absurd hfits (by simp [fits])
  | texts =>
    cases v with
    | texts l => rw [datum, Shape.reading, strings?_eq_some.mpr rfl]; rfl
    | _ => exact absurd hfits (by simp [fits])
  | record name fields ih =>
    cases v with
    | record vs =>
      have hkeys : keyedAll fields = true := hkeys
      rw [fits_record] at hfits
      have hall := forall_members hkeys hfits
        (fun f hf v => ih f hf (keyed_of_mem hkeys hf)) (fun _ _ => rfl)
      rw [datum, Shape.reading, membersReading_eq hall]
      rfl
    | _ => exact absurd hfits (by simp [fits])

/-- **A compact text is read back** as the value that was printed. -/
theorem decode_print (hkeys : shape.keyed = true) (hfits : fits shape v = true) :
    decode shape (shape.print v) = .ok v := by
  have hwritten : (datum shape v).WrittenAs (shape.print v) := by
    have hspells := spells_printValue shape v []
    rw [List.append_nil] at hspells
    exact ⟨[], by rwa [Shape.print, String.toList_ofList], .done⟩
  have hread := decode_eq hkeys hwritten
  rw [reading_datum hkeys hfits] at hread
  cases hd : decode shape (shape.print v) with
  | error f => rw [hd] at hread; cases hread
  | ok u => rw [hd] at hread; cases hread; rfl

end

end PaneRelay.Json
