import PaneRelay.Proofs.Json.Meaning
import PaneRelay.Proofs.Json.Skipping

/-! # The reader of shapes follows the grammar

A text that writes a value is read as what the value means where a shape is expected, however it
writes it; where the value means nothing, it is refused.

* `readText_gives`, `readTexts_gives`, `readRange_gives`: strings, arrays of them and numbers.
* `readFields_fills`, `readRecord_gives`: the two forms of a record, given that its fields are read
  as what they mean.
* `readShape_gives`: every shape, by induction on it.
* `decode_eq`: a whole text. -/

namespace PaneRelay.Json

open PaneRelay.Text

variable {s t r q : List Char} {c : Char} {d : Datum} {ds : List Datum} {ms : List (String × Datum)}
  {first : Bool}

/-! ### Between the elements of an array or an object -/

/-- Blanks before a value may be gone already. -/
theorem Spells.unblank (h : Spells (.value d) s r) : Spells (.value d) (skipBlanks s) r := by
  cases h with
  | null hb => exact .null (hb.skip (by decide) ▸ .done)
  | yes hb => exact .yes (hb.skip (by decide) ▸ .done)
  | no hb => exact .no (hb.skip (by decide) ▸ .done)
  | number hb hx =>
    refine .number ?_ hx
    cases hx with
    | plain _ hm =>
      obtain ⟨c, q, rfl, hc⟩ := hm.head
      exact hb.skip (isBlank_of_isDigit hc) ▸ .done
    | minus _ _ => exact hb.skip (by decide) ▸ .done
  | string hq =>
    obtain ⟨t, hb, ht⟩ := hq
    exact .string ⟨t, hb.skip (by decide) ▸ .done, ht⟩
  | list hb hds => exact .list (hb.skip (by decide) ▸ .done) hds
  | object hb hms => exact .object (hb.skip (by decide) ▸ .done) hms

theorem nextElement_none (hs : skipBlanks s = ']' :: r) : nextElement first s = .ok none := by
  unfold nextElement
  split
  · next h => cases hs.symm.trans h
  · next h =>
    cases hs.symm.trans h
    rfl

theorem nextElement_some (hs : Comma first s t) (ht : skipBlanks t = c :: q) (hc : c ≠ ']') :
    ∃ h, nextElement first s = .ok (some ⟨c :: q, h⟩) := by
  unfold nextElement
  cases first with
  | true =>
    obtain rfl := hs
    split
    · next h => cases ht.symm.trans h
    · next h =>
      cases ht.symm.trans h
      exact ⟨cons_le_of_skipBlanks ht, (if_neg hc).trans (if_pos rfl)⟩
  | false =>
    have hs := Blanks.skip hs (by decide)
    split
    · next h => cases hs.symm.trans h
    · next h =>
      cases hs.symm.trans h
      rw [if_neg (by decide), if_neg (by decide), if_pos rfl]
      split
      · next h1 => cases ht.symm.trans h1
      · next h1 =>
        cases ht.symm.trans h1
        exact ⟨Nat.le_trans (cons_le_of_skipBlanks ht) (le_of_skipBlanks hs), if_neg hc⟩

theorem endList_gives (hs : skipBlanks s = ']' :: r) : Gives (endList s) r (some ()) := by
  unfold endList
  split
  · next h => cases hs.symm.trans h
  · next h =>
    cases hs.symm.trans h
    exact ⟨_, if_pos rfl⟩

theorem endList_fails (hs : skipBlanks s = c :: q) (hc : c ≠ ']') : Gives (endList s) r none := by
  unfold endList
  split
  · next h => cases hs.symm.trans h
  · next h =>
    cases hs.symm.trans h
    rw [if_neg hc]
    split
    · dsimp only
      split
      · exact ⟨_, rfl⟩
      · exact ⟨_, rfl⟩
    · exact ⟨_, rfl⟩

theorem nextKey_none (hs : skipBlanks s = '\x7d' :: r) : nextKey first s = .ok none := by
  unfold nextKey
  split
  · next h => cases hs.symm.trans h
  · next h =>
    cases hs.symm.trans h
    rfl

theorem Quoted.key {key : String} (h : Quoted key s r) (ended : Cause) :
    Gives (readKey .wanted ended s) r (some key) := by
  obtain ⟨t, hb, ht⟩ := h
  rw [← String.ofList_toList (s := key)]
  exact readKey_gives (hb.skip (by decide)) ht.wanted

theorem nextKey_some {key : String} (hs : Comma first s t) (hk : Quoted key t r) :
    ∃ h, nextKey first s = .ok (some ⟨key, r, h⟩) := by
  obtain ⟨q, hb, hq⟩ := id hk
  have ht := hb.skip (by decide)
  unfold nextKey
  cases first with
  | true =>
    obtain rfl := hs
    split
    · next h => cases ht.symm.trans h
    · next h =>
      cases ht.symm.trans h
      have hk : Quoted key ('"' :: q) r := ⟨q, .done, hq⟩
      obtain ⟨hlt, hx⟩ := hk.key .eofObject
      rw [if_neg (by decide), if_pos rfl, hx]
      exact ⟨Nat.lt_of_lt_of_le hlt (cons_le_of_skipBlanks ht), rfl⟩
  | false =>
    have hs := Blanks.skip hs (by decide)
    split
    · next h => cases hs.symm.trans h
    · next h =>
      cases hs.symm.trans h
      obtain ⟨hlt, hx⟩ := hk.key .eofValue
      rw [if_neg (by decide), if_neg (by decide), if_pos rfl, if_neg (by simp [ht]), hx]
      exact ⟨Nat.lt_of_lt_of_le hlt (le_of_skipBlanks hs), rfl⟩

/-! ### Strings and numbers -/

theorem readText_gives (h : Spells (.value d) s r) : Gives (readText s) r d.string? := by
  obtain ⟨c, q, hs, hc⟩ := h.opens
  unfold readText
  split
  · next h1 => cases hs.symm.trans h1
  · next h1 =>
    cases hs.symm.trans h1
    split
    · next hquote =>
      obtain ⟨a, rfl⟩ := hc.kind.1 hquote
      cases h with
      | string hq =>
        obtain ⟨t, hb, ht⟩ := hq
        cases hs.symm.trans (hb.skip (by decide))
        exact ht.wanted.andThen fun _ => .of_eq rfl String.ofList_toList rfl
    · next hquote =>
      have hnone : d.string? = none := by
        cases d with
        | string a => exact absurd hc hquote
        | _ => rfl
      exact hnone ▸ ⟨_, rfl⟩

theorem readTexts_gives (h : Spells (.items first ds) s r) :
    Gives (readTexts first s) r (ds.mapM Datum.string?) := by
  induction ds generalizing first s with
  | nil =>
    cases h with
    | endItems hb =>
      have hs := hb.skip (by decide)
      rw [readTexts, nextElement_none hs]
      exact (endList_gives hs).andThen fun _ => ⟨_, rfl⟩
  | cons d ds ih =>
    cases h with
    | item hcomma hd hds =>
      obtain ⟨c, q, ht, hc⟩ := hd.opens
      obtain ⟨_, hx⟩ := nextElement_some hcomma ht hc.kind.2.2.2
      rw [readTexts, hx, List.mapM_cons]
      refine (readText_gives (ht ▸ hd.unblank)).bind fun a _ _ => ?_
      exact (ih hds).bind fun as _ _ => ⟨_, rfl⟩

theorem readTextArray_gives (h : Spells (.value d) s r) : Gives (readTextArray s) r d.strings? := by
  obtain ⟨c, q, hs, hc⟩ := h.opens
  unfold readTextArray
  split
  · next h1 => cases hs.symm.trans h1
  · next h1 =>
    cases hs.symm.trans h1
    split
    · next hbracket =>
      obtain ⟨ds, rfl⟩ := hc.kind.2.1 hbracket
      cases h with
      | list hb hds =>
        cases hs.symm.trans (hb.skip (by decide))
        exact (readTexts_gives hds).keep fun _ _ => ⟨_, rfl⟩
    · next hbracket =>
      have hnone : d.strings? = none := by
        cases d with
        | list _ => exact absurd hc hbracket
        | _ => rfl
      exact hnone ▸ ⟨_, rfl⟩

theorem readNumber_gives {x : Numeral} (h : Magnitude x s r) (hr : Ends r) :
    Gives (readNumber x.negative s) r x.value.toOption := by
  unfold readNumber
  refine (readNumeral_gives h hr .wanted).andThen fun _ => ?_
  cases hx : x.value with
  | error left => simp only [hx]; exact ⟨_, rfl⟩
  | ok n => simp only [hx]; exact ⟨_, rfl⟩

theorem fitStep_gives {w : Width} {x : Step s Number} (hr : x.rest = r) :
    Gives (fitStep w x) r (fitWord w x.val).toOption := by
  unfold fitStep
  cases fitWord w x.val with
  | error c => exact ⟨_, rfl⟩
  | ok m => exact .of_eq rfl rfl hr

theorem readRange_gives {w : Width} (h : Spells (.value d) s r) (hr : Ends r) :
    Gives (readRange w s) r (d.word? w) := by
  obtain ⟨c, q, hs, hc⟩ := h.opens
  unfold readRange
  split
  · next h1 => cases hs.symm.trans h1
  · next h1 =>
    cases hs.symm.trans h1
    cases d with
    | number x =>
      obtain ⟨t, hb, hx⟩ : ∃ t, Blanks s t ∧ Figure x t r := by
        cases h with
        | number hb hx => exact ⟨_, hb, hx⟩
      cases hx with
      | plain hneg hm =>
        have hx := readNumber_gives hm hr
        obtain ⟨c, q, rfl, hd⟩ := hm.head
        cases hs.symm.trans (hb.skip (isBlank_of_isDigit hd))
        have hminus : c ≠ '-' := by
          rintro rfl
          exact absurd hd (by decide)
        rw [if_neg hminus, if_pos hd]
        rw [hneg] at hx
        exact hx.bind fun n _ _ => fitStep_gives rfl
      | minus hneg hm =>
        have hx := readNumber_gives hm hr
        cases hs.symm.trans (hb.skip (by decide))
        rw [if_pos rfl]
        rw [hneg] at hx
        exact hx.bind fun n _ _ => fitStep_gives rfl
    | bool b => cases b <;> (obtain rfl := hc; exact ⟨_, rfl⟩)
    | _ =>
      obtain rfl := hc
      exact ⟨_, rfl⟩

/-! ### Records -/

section
variable {fields : List (String × Shape × Option Value)}

theorem ok_bind {ε α β : Type} {a : α} {f : α → Except ε β} : (Except.ok a >>= f) = f a := rfl

/-- A shape is read as what the value means. -/
def Follows (shape : Shape) : Prop :=
  ∀ {d : Datum} {s r : List Char}, Spells (.value d) s r → Ends r →
    Gives (readShape shape s) r (shape.reading d)

theorem fillTail_eq (name : String) (count index : Nat) :
    (fillTail name count index fields).toOption = itemsReading fields [] := by
  induction fields generalizing index with
  | nil => rfl
  | cons f fields ih =>
    obtain ⟨key, shape, default?⟩ := f
    cases default? with
    | none => rfl
    | some v =>
      simp only [fillTail, itemsReading, ← ih (index + 1)]
      cases fillTail name count (index + 1) fields <;> rfl

/-- What the fields of an array come to, with the bracket behind them. -/
def Fills (x : Except Fault (List Value × Rest s)) (r : List Char) : Option (List Value) → Prop
  | some vs => ∃ t, x = .ok (vs, t) ∧ Gives (endList t.1) r (some ())
  | none => ∀ vs t, x = .ok (vs, t) → Gives (endList t.1) r none

/-- Where another element comes there is no bracket. -/
theorem endList_item (hcomma : Comma first s t) (hd : Spells (.value d) t q) :
    Gives (endList s) r none := by
  cases first with
  | true =>
    obtain rfl := hcomma
    obtain ⟨c, _, hs, hc⟩ := hd.opens
    exact endList_fails hs hc.kind.2.2.2
  | false => exact endList_fails (Blanks.skip hcomma (by decide)) (by decide)

/-- **The fields of an array** are read in order, as long as there are elements. -/
theorem readFields_fills (hfields : ∀ f ∈ fields, Follows f.2.1) (name : String)
    (count index : Nat) (h : Spells (.items first ds) s r) :
    Fills (readFields name count first index fields s) r (itemsReading fields ds) := by
  induction fields generalizing first index ds s with
  | nil =>
    rw [readFields]
    cases h with
    | endItems hb => exact ⟨_, rfl, endList_gives (hb.skip (by decide))⟩
    | item hcomma hd _ =>
      -- there are more elements than fields
      rintro vs t ⟨⟩
      exact endList_item hcomma hd
  | cons f fields ih =>
    obtain ⟨key, shape, default?⟩ := f
    cases h with
    | endItems hb =>
      have hs := hb.skip (by decide)
      rw [readFields, nextElement_none hs, ← fillTail_eq name count index]
      simp only [bind, Except.bind]
      cases fillTail name count index ((key, shape, default?) :: fields) with
      | ok vs => exact ⟨.whole s, rfl, endList_gives hs⟩
      | error c =>
        rintro vs t ⟨⟩
    | @item _ d ds _ t u _ hcomma hd hds =>
      obtain ⟨c, q, ht, hc⟩ := hd.opens
      obtain ⟨_, hx⟩ := nextElement_some hcomma ht hc.kind.2.2.2
      have hv := hfields _ List.mem_cons_self (ht ▸ hd.unblank) hds.ends_items
      have hvs := ih (fun f hf => hfields f (List.mem_cons_of_mem _ hf)) (index + 1) hds
      rw [readFields, hx]
      simp only [itemsReading, bind, Except.bind]
      cases hfirst : shape.reading d with
      | none =>
        rw [hfirst] at hv
        obtain ⟨e, he⟩ := hv
        rw [he]
        rintro vs t ⟨⟩
      | some v =>
        rw [hfirst] at hv
        obtain ⟨_, he⟩ := hv
        rw [he]
        cases hrest : itemsReading fields ds with
        | none =>
          rw [hrest] at hvs
          dsimp only
          cases hx : readFields name count false (index + 1) fields u with
          | error e =>
            rintro vs t ⟨⟩
          | ok p =>
            rintro vs t ⟨⟩
            exact hvs _ _ hx
        | some vs =>
          rw [hrest] at hvs
          obtain ⟨t, ht, hend⟩ := hvs
          simp only [ht]
          exact ⟨_, rfl, hend⟩

/-- **The members of an object** are read in any order, by induction on them. -/
theorem readRecord_gives (hfields : ∀ f ∈ fields, Follows f.2.1) (hkeys : keyedAll fields = true)
    {read : List (Option Value)} (hlen : read.length = fields.length)
    (h : Spells (.members first ms) s r) :
    Gives (readRecord fields first read s) r (settle fields read ms) := by
  induction ms generalizing first read s with
  | nil =>
    cases h with
    | endMembers hb =>
      have hs := hb.skip (by decide)
      rw [readRecord, nextKey_none hs, ← settle_nil]
      simp only [bind, Except.bind]
      split
      · next h1 => cases hs.symm.trans h1
      · next h1 =>
        cases hs.symm.trans h1
        cases fillFields fields read with
        | ok vs => exact ⟨_, rfl⟩
        | error c => exact ⟨_, rfl⟩
  | cons m ms ih =>
    cases h with
    | @member _ key d _ _ t u v w _ hcomma hk hcolon hd hms =>
      obtain ⟨hlt, hx⟩ := nextKey_some hcomma hk
      have hcolon := readColon_gives hcolon
      rw [readRecord, hx, ok_bind]
      dsimp only
      split
      · next hi =>
        -- a key that is not known: its value is skipped
        have hkey : key ∉ fields.map (·.1) := by
          rintro hmem
          obtain ⟨f, hf, rfl⟩ := List.mem_map.mp hmem
          simpa using List.findIdx?_eq_none_iff.mp hi f hf
        rw [settle_unknown hkey]
        refine hcolon.andThen fun _ => ?_
        refine (skipValue_gives hd hms.ends_members).andThen fun _ => ?_
        exact (ih hlen hms).keep fun _ _ => ⟨_, rfl⟩
      · next i hi =>
        obtain ⟨f, hf, rfl⟩ : ∃ f, fields[i]? = some f ∧ f.1 = key := by
          obtain ⟨hlt, hfound, -⟩ := List.findIdx?_eq_some_iff_getElem.mp hi
          exact ⟨_, List.getElem?_eq_getElem hlt, by simpa using hfound⟩
        cases hread : read[i]?.join with
        | some v =>
          rw [settle_again hf hread]
          exact ⟨_, rfl⟩
        | none =>
          rw [settle_member hkeys hlen hf hread]
          refine hcolon.andThen fun _ => ?_
          have hx := hfields f (List.mem_of_getElem? hf) hd hms.ends_members
          rw [hf]
          refine hx.bind fun a _ _ => ?_
          exact (ih (by simpa using hlen) hms).keep fun _ _ => ⟨_, rfl⟩

end

/-! ### Shapes -/

/-- **Every shape is read as what the value means**, by induction on the shape. -/
theorem readShape_gives {shape : Shape} (hkeys : shape.keyed = true) : Follows shape := by
  induction shape using Shape.induct with
  | word w =>
    intro d s r h hr
    rw [readShape]
    exact (readRange_gives h hr).map fun _ _ => ⟨_, rfl⟩
  | text =>
    intro d s r h _
    rw [readShape]
    exact (readText_gives h).map fun _ _ => ⟨_, rfl⟩
  | texts =>
    intro d s r h _
    rw [readShape]
    exact (readTextArray_gives h).map fun _ _ => ⟨_, rfl⟩
  | record name fields ih =>
    intro d s r h _
    have hkeys : keyedAll fields = true := hkeys
    have hfields : ∀ f ∈ fields, Follows f.2.1 := fun f hf => ih f hf (keyed_of_mem hkeys hf)
    obtain ⟨c, q, hs, hc⟩ := h.opens
    rw [readShape]
    split
    · next h1 => cases hs.symm.trans h1
    · next h1 =>
      cases hs.symm.trans h1
      dsimp only
      split
      · next hbracket =>
        obtain ⟨ds, rfl⟩ := hc.kind.2.1 hbracket
        cases h with
        | list hb hds =>
          cases hs.symm.trans (hb.skip (by decide))
          have hx := readFields_fills hfields name fields.length 0 hds
          show Gives _ r ((itemsReading fields ds).map Value.record)
          cases ho : itemsReading fields ds with
          | none =>
            rw [ho] at hx
            cases hy : readFields name fields.length true 0 fields q with
            | error e => exact ⟨e, rfl⟩
            | ok p => exact (hx _ _ hy).fails
          | some vs =>
            rw [ho] at hx
            obtain ⟨t, hy, hend⟩ := hx
            rw [hy]
            exact hend.andThen fun _ => ⟨_, rfl⟩
      · next hbracket =>
        split
        · next hbrace =>
          obtain ⟨ms, rfl⟩ := hc.kind.2.2.1 hbrace
          cases h with
          | object hb hms =>
            cases hs.symm.trans (hb.skip (by decide))
            have hlen : (fields.map fun _ => (none : Option Value)).length = fields.length :=
              List.length_map _
            have hx := readRecord_gives hfields hkeys hlen hms
            rw [settle_none] at hx
            exact hx.map fun _ _ => ⟨_, rfl⟩
        · next hbrace =>
          have hnone : (Shape.record name fields).reading d = none := by
            cases d with
            | list _ => exact absurd hc hbracket
            | object _ => exact absurd hc hbrace
            | _ => rfl
          exact hnone ▸ ⟨_, rfl⟩

/-- What is left after a value is blank. -/
theorem readEnd_of_blanks (h : Blanks r []) : readEnd r = .ok () := by
  have hr : skipBlanks r = [] := h.skip_eq
  unfold readEnd
  rw [hr]

/-- **A whole text** is read as what the value that it writes means. -/
theorem decode_eq {shape : Shape} (hkeys : shape.keyed = true) {d : Datum} {text : String}
    (h : d.WrittenAs text) : (decode shape text).toOption = shape.reading d := by
  obtain ⟨r, hd, hr⟩ := h
  have hx := readShape_gives hkeys hd (.inl hr)
  unfold decode
  cases ho : shape.reading d with
  | none =>
    rw [ho] at hx
    obtain ⟨e, he⟩ := hx
    rw [he]
    rfl
  | some v =>
    rw [ho] at hx
    obtain ⟨_, he⟩ := hx
    rw [he, ok_bind]
    simp only [readEnd_of_blanks hr]
    rfl

end PaneRelay.Json
