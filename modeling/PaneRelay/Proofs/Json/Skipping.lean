import PaneRelay.Proofs.Json.Tokens

/-! # Values that are not wanted are skipped

Whatever value stands where none is wanted, it is taken off the text to its end, at any depth and
with numbers of any size.

* `Datum.Opens`: the character that a value starts with.
* `Skipped`: what it means for each piece of the grammar that it is taken off; `skipped` shows it by
  induction on the piece.
* `skipValue_gives`: the reader that skips a value leaves what follows it. -/

namespace PaneRelay.Json

open PaneRelay.Text

variable {s t u r q : List Char} {use : Use}

/-! ### How values start -/

/-- **The character that a value starts with.** -/
def Datum.Opens : Datum → Char → Prop
  | .null, c => c = 'n'
  | .bool true, c => c = 't'
  | .bool false, c => c = 'f'
  | .number x, c => if x.negative = true then c = '-' else c.isDigit = true
  | .string _, c => c = '"'
  | .list _, c => c = '['
  | .object _, c => c = '\x7b'

theorem Magnitude.head {x : Numeral} (h : Magnitude x s r) :
    ∃ c q, s = c :: q ∧ c.isDigit = true := by
  obtain ⟨t, u, hw, -, -⟩ := h.parts
  generalize x.whole = ds at hw
  cases hw with
  | zero => exact ⟨'0', _, rfl, by decide⟩
  | digits _ hd => exact ⟨_, _, hd.eq, hd.all _ List.mem_cons_self⟩

theorem isBlank_of_isDigit {c : Char} (h : c.isDigit = true) : isBlank c = false := by
  have hall : ∀ c ∈ [' ', '\t', '\n', '\r'], c.isDigit = false := by simp
  cases hb : isBlank c with
  | false => rfl
  | true =>
    have hmem : c ∈ [' ', '\t', '\n', '\r'] := by simpa [isBlank, or_assoc] using hb
    exact absurd ((hall c hmem).symm.trans h) (by decide)

/-- **Behind blanks a value starts** with the character of its kind. -/
theorem Spells.opens {d : Datum} (h : Spells (.value d) s r) :
    ∃ c q, skipBlanks s = c :: q ∧ d.Opens c := by
  cases h with
  | null hb => exact ⟨'n', _, hb.skip (by decide), rfl⟩
  | yes hb => exact ⟨'t', _, hb.skip (by decide), rfl⟩
  | no hb => exact ⟨'f', _, hb.skip (by decide), rfl⟩
  | number hb hx =>
    cases hx with
    | plain hneg hm =>
      obtain ⟨c, q, rfl, hc⟩ := hm.head
      exact ⟨c, q, hb.skip (isBlank_of_isDigit hc), by simpa [Datum.Opens, hneg] using hc⟩
    | minus hneg _ => exact ⟨'-', _, hb.skip (by decide), by simp [Datum.Opens, hneg]⟩
  | string hq =>
    obtain ⟨t, hb, -⟩ := hq
    exact ⟨'"', t, hb.skip (by decide), rfl⟩
  | list hb _ => exact ⟨'[', _, hb.skip (by decide), rfl⟩
  | object hb _ => exact ⟨'\x7b', _, hb.skip (by decide), rfl⟩

/-- Quotes, brackets and braces tell the kind of a value. -/
theorem Datum.Opens.kind {d : Datum} {c : Char} (h : d.Opens c) :
    (c = '"' → ∃ a, d = .string a) ∧ (c = '[' → ∃ ds, d = .list ds) ∧
      (c = '\x7b' → ∃ ms, d = .object ms) ∧ c ≠ ']' := by
  cases d with
  | number x =>
    have hc : c = '-' ∨ c.isDigit = true := by
      cases hn : x.negative <;> simp only [Opens, hn] at h
      · exact .inr h
      · exact .inl h
    refine ⟨?_, ?_, ?_, ?_⟩ <;> rintro rfl <;> simp at hc
  | bool b => cases b <;> (obtain rfl := h; simp)
  | _ => obtain rfl := h; simp

/-! ### Steps of the reader -/

section
variable {c : Char} {v : Tree}

/-- The words that are values: how each starts, how it goes on and what it is read as. -/
def words : List (Char × List Char × Tree) :=
  [('n', ['u', 'l', 'l'], .null), ('t', ['r', 'u', 'e'], .bool true),
    ('f', ['a', 'l', 's', 'e'], .bool false)]

theorem readTree_word {w : List Char} (h : (c, w, v) ∈ words) (hs : skipBlanks s = c :: (w ++ r)) :
    Gives (readTree use s) r (some v) := by
  rw [readTree]
  split
  · next h1 => cases hs.symm.trans h1
  · next h1 =>
    cases hs.symm.trans h1
    simp only [words, List.mem_cons, Prod.mk.injEq, List.not_mem_nil, or_false] at h
    obtain ⟨rfl, rfl, rfl⟩ | ⟨rfl, rfl, rfl⟩ | ⟨rfl, rfl, rfl⟩ := h
    · exact ⟨_, rfl⟩
    · exact ⟨_, rfl⟩
    · exact ⟨_, rfl⟩

theorem readTree_string {cs : List Char} (hs : skipBlanks s = '"' :: t)
    (hx : Gives (readString use t) r (some cs)) :
    Gives (readTree use s) r (some (.string (String.ofList cs))) := by
  rw [readTree]
  split
  · next h => cases hs.symm.trans h
  · next h =>
    cases hs.symm.trans h
    exact hx.andThen fun _ => ⟨_, rfl⟩

theorem readTree_minus {n : Number} (hs : skipBlanks s = '-' :: t)
    (hx : Gives (readNumberFor use true t) r (some n)) :
    Gives (readTree use s) r (some (.number n)) := by
  rw [readTree]
  split
  · next h => cases hs.symm.trans h
  · next h =>
    cases hs.symm.trans h
    exact hx.andThen fun _ => ⟨_, rfl⟩

theorem readTree_digit {n : Number} (hs : skipBlanks s = c :: t) (hc : c.isDigit = true)
    (hx : Gives (readNumberFor use false (c :: t)) r (some n)) :
    Gives (readTree use s) r (some (.number n)) := by
  have hne : c ≠ 'n' ∧ c ≠ 't' ∧ c ≠ 'f' ∧ c ≠ '"' ∧ c ≠ '-' := by
    refine ⟨?_, ?_, ?_, ?_, ?_⟩ <;> (rintro rfl; exact absurd hc (by decide))
  obtain ⟨h1, h2, h3, h4, h5⟩ := hne
  rw [readTree]
  split
  · next h => cases hs.symm.trans h
  · next h =>
    cases hs.symm.trans h
    simp only [if_neg h1, if_neg h2, if_neg h3, if_neg h4, if_neg h5, if_pos hc]
    exact hx.andThen fun _ => ⟨_, rfl⟩

theorem readTree_emptyList (hs : skipBlanks s = '[' :: t) (ht : skipBlanks t = ']' :: r) :
    Gives (readTree use s) r (some (.list [])) := by
  rw [readTree]
  split
  · next h => cases hs.symm.trans h
  · next h =>
    cases hs.symm.trans h
    dsimp only
    rw [if_neg (by decide), if_neg (by decide), if_neg (by decide), if_neg (by decide),
      if_neg (by decide), if_neg (by decide), if_pos rfl]
    split
    · next h1 => cases ht.symm.trans h1
    · next h1 =>
      cases ht.symm.trans h1
      exact ⟨_, rfl⟩
    · next h1 => exact absurd ht (h1 r)

theorem readTree_list {vs : List Tree} (hs : skipBlanks s = '[' :: t) (ht : skipBlanks t = c :: q)
    (hc : c ≠ ']') (hx : Gives (readItems use t) r (some vs)) :
    Gives (readTree use s) r (some (.list vs)) := by
  rw [readTree]
  split
  · next h => cases hs.symm.trans h
  · next h =>
    cases hs.symm.trans h
    dsimp only
    rw [if_neg (by decide), if_neg (by decide), if_neg (by decide), if_neg (by decide),
      if_neg (by decide), if_neg (by decide), if_pos rfl]
    split
    · next h1 => cases ht.symm.trans h1
    · next h1 =>
      cases ht.symm.trans h1
      exact absurd rfl hc
    · exact hx.andThen fun _ => ⟨_, rfl⟩

theorem readTree_emptyObject (hs : skipBlanks s = '\x7b' :: t) (ht : skipBlanks t = '\x7d' :: r) :
    Gives (readTree use s) r (some (.object [])) := by
  rw [readTree]
  split
  · next h => cases hs.symm.trans h
  · next h =>
    cases hs.symm.trans h
    dsimp only
    rw [if_neg (by decide), if_neg (by decide), if_neg (by decide), if_neg (by decide),
      if_neg (by decide), if_neg (by decide), if_neg (by decide), if_pos rfl]
    split
    · next h1 =>
      cases ht.symm.trans h1
      exact ⟨_, rfl⟩
    · next h1 => exact absurd ht (h1 r)

theorem readTree_object {vs : List (String × Tree)} (hs : skipBlanks s = '\x7b' :: t)
    (ht : skipBlanks t = c :: q) (hc : c ≠ '\x7d')
    (hx : Gives (readMembers use .eofObject t) r (some vs)) :
    Gives (readTree use s) r (some (.object vs)) := by
  rw [readTree]
  split
  · next h => cases hs.symm.trans h
  · next h =>
    cases hs.symm.trans h
    dsimp only
    rw [if_neg (by decide), if_neg (by decide), if_neg (by decide), if_neg (by decide),
      if_neg (by decide), if_neg (by decide), if_neg (by decide), if_pos rfl]
    split
    · next h1 =>
      cases ht.symm.trans h1
      exact absurd rfl hc
    · exact hx.andThen fun _ => ⟨_, rfl⟩

theorem readItems_last (hx : Gives (readTree use s) t (some v)) (ht : skipBlanks t = ']' :: r) :
    Gives (readItems use s) r (some [v]) := by
  rw [readItems]
  refine hx.andThen fun _ => ?_
  dsimp only
  split
  · next h1 => cases ht.symm.trans h1
  · next h1 =>
    cases ht.symm.trans h1
    exact ⟨_, rfl⟩
  · next h1 => cases ht.symm.trans h1
  · next h0 _ h2 =>
    cases ht.symm.trans h2
    exact absurd rfl h0

theorem readItems_more {vs : List Tree} (hx : Gives (readTree .skipped s) t (some v))
    (ht : skipBlanks t = ',' :: u) (hu : Gives (readItems .skipped u) r (some vs)) :
    Gives (readItems .skipped s) r (some (v :: vs)) := by
  rw [readItems]
  refine hx.andThen fun _ => ?_
  dsimp only
  split
  · next h1 => cases ht.symm.trans h1
  · next h1 => cases ht.symm.trans h1
  · next h1 =>
    cases ht.symm.trans h1
    exact hu.andThen fun _ => ⟨_, rfl⟩
  · next _ h1 h2 =>
    cases ht.symm.trans h2
    exact absurd rfl h1

theorem readKey_gives {key : List Char} {ended : Cause} (hs : skipBlanks s = '"' :: t)
    (hx : Gives (readString use t) r (some key)) :
    Gives (readKey use ended s) r (some (String.ofList key)) := by
  unfold readKey
  split
  · next h => cases hs.symm.trans h
  · next h =>
    cases hs.symm.trans h
    exact hx.andThen fun _ => ⟨_, rfl⟩
  · next h1 h =>
    cases hs.symm.trans h
    exact absurd rfl h1

theorem readColon_gives (hs : Blanks s (':' :: r)) : Gives (readColon s) r (some ()) := by
  have hs := hs.skip (by decide)
  unfold readColon
  split
  · next h => cases hs.symm.trans h
  · next h =>
    cases hs.symm.trans h
    exact ⟨_, rfl⟩
  · next h1 h =>
    cases hs.symm.trans h
    exact absurd rfl h1

theorem readMembers_last {key : String} {ended : Cause} {w : List Char}
    (hk : Gives (readKey use ended s) t (some key)) (hc : Gives (readColon t) u (some ()))
    (hx : Gives (readTree use u) w (some v)) (hw : skipBlanks w = '\x7d' :: r) :
    Gives (readMembers use ended s) r (some [(key, v)]) := by
  rw [readMembers]
  refine hk.andThen fun _ => hc.andThen fun _ => hx.andThen fun _ => ?_
  dsimp only
  split
  · next h1 => cases hw.symm.trans h1
  · next h1 =>
    cases hw.symm.trans h1
    exact ⟨_, rfl⟩
  · next h1 => cases hw.symm.trans h1
  · next h0 _ h2 =>
    cases hw.symm.trans h2
    exact absurd rfl h0

theorem readMembers_more {key : String} {ended : Cause} {w : List Char} {vs : List (String × Tree)}
    (hk : Gives (readKey .skipped ended s) t (some key)) (hc : Gives (readColon t) u (some ()))
    (hx : Gives (readTree .skipped u) w (some v)) (hw : skipBlanks w = ',' :: q)
    (hq : Gives (readMembers .skipped (endAfterComma .skipped) q) r (some vs)) :
    Gives (readMembers .skipped ended s) r (some ((key, v) :: vs)) := by
  rw [readMembers]
  refine hk.andThen fun _ => hc.andThen fun _ => hx.andThen fun _ => ?_
  dsimp only
  split
  · next h1 => cases hw.symm.trans h1
  · next h1 => cases hw.symm.trans h1
  · next h1 =>
    cases hw.symm.trans h1
    exact hq.andThen fun _ => ⟨_, rfl⟩
  · next _ h1 h2 =>
    cases hw.symm.trans h2
    exact absurd rfl h1

end

/-! ### Skipping -/

/-- **What it means for a piece of the grammar that it is taken off.** Behind an element there is
the end, or a comma and more elements; so it is with members. -/
def Skipped : Phrase → List Char → List Char → Prop
  | .value _, s, r => Ends r → ∃ v, Gives (readTree .skipped s) r (some v)
  | .items true ds, s, r => ds ≠ [] → ∃ vs, Gives (readItems .skipped s) r (some vs)
  | .items false _, s, r => skipBlanks s = ']' :: r ∨
    ∃ q vs, skipBlanks s = ',' :: q ∧ Gives (readItems .skipped q) r (some vs)
  | .members true ms, s, r =>
    ms ≠ [] → ∀ ended, ∃ vs, Gives (readMembers .skipped ended s) r (some vs)
  | .members false _, s, r => skipBlanks s = '\x7d' :: r ∨
    ∃ q, skipBlanks s = ',' :: q ∧
      ∀ ended, ∃ vs, Gives (readMembers .skipped ended q) r (some vs)

theorem Figure.skipped {x : Numeral} (hb : Blanks s t) (h : Figure x t r) (hr : Ends r) :
    ∃ v, Gives (readTree .skipped s) r (some v) := by
  -- the number has no value, so only its form counts
  have hnum : ∀ {t : List Char}, Magnitude x t r →
      Gives (readNumberFor .skipped x.negative t) r (some (.whole 0)) :=
    fun hm => (readNumeral_gives hm hr .skipped).andThen fun _ => ⟨_, rfl⟩
  cases h with
  | plain hneg hm =>
    have hx := hnum hm
    obtain ⟨c, q, rfl, hc⟩ := hm.head
    rw [hneg] at hx
    exact ⟨_, readTree_digit (hb.skip (isBlank_of_isDigit hc)) hc hx⟩
  | minus hneg hm =>
    have hx := hnum hm
    rw [hneg] at hx
    exact ⟨_, readTree_minus (hb.skip (by decide)) hx⟩

theorem Quoted.skipped_key {a : String} (h : Quoted a s r) (ended : Cause) :
    ∃ k, Gives (readKey .skipped ended s) r (some k) := by
  obtain ⟨t, hb, ht⟩ := h
  obtain ⟨cs, hx⟩ := ht.skipped
  exact ⟨_, readKey_gives (hb.skip (by decide)) hx⟩

/-- **What the grammar derives is taken off**, by induction on its pieces. -/
theorem skipped {p : Phrase} (h : Spells p s r) : Skipped p s r := by
  induction h with
  | null hb => exact fun _ => ⟨_, readTree_word (.head _) (hb.skip (by decide))⟩
  | yes hb => exact fun _ => ⟨_, readTree_word (.tail _ (.head _)) (hb.skip (by decide))⟩
  | no hb => exact fun _ => ⟨_, readTree_word (.tail _ (.tail _ (.head _))) (hb.skip (by decide))⟩
  | number hb hx => exact fun hr => hx.skipped hb hr
  | string hq =>
    obtain ⟨t, hb, ht⟩ := hq
    obtain ⟨cs, hx⟩ := ht.skipped
    exact fun _ => ⟨_, readTree_string (hb.skip (by decide)) hx⟩
  | @list ds _ _ _ hb hds ih =>
    intro _
    have hs := hb.skip (by decide)
    cases hds with
    | endItems ht => exact ⟨_, readTree_emptyList hs (ht.skip (by decide))⟩
    | item heq hd _ =>
      obtain rfl := heq
      obtain ⟨c, q, hc, hopens⟩ := hd.opens
      obtain ⟨vs, hx⟩ := ih (List.cons_ne_nil _ _)
      exact ⟨_, readTree_list hs hc hopens.kind.2.2.2 hx⟩
  | @object ms _ _ _ hb hms ih =>
    intro _
    have hs := hb.skip (by decide)
    cases hms with
    | endMembers ht => exact ⟨_, readTree_emptyObject hs (ht.skip (by decide))⟩
    | member heq hk _ _ _ =>
      obtain rfl := heq
      obtain ⟨q, hq, -⟩ := hk
      obtain ⟨vs, hx⟩ := ih (List.cons_ne_nil _ _) .eofObject
      exact ⟨_, readTree_object hs (hq.skip (by decide)) (by decide) hx⟩
  | @endItems first _ _ hb =>
    cases first with
    | true => exact fun hne => absurd rfl hne
    | false => exact .inl (hb.skip (by decide))
  | @item first d ds _ t u r hcomma _ hds ihd ihds =>
    obtain ⟨v, hv⟩ := ihd hds.ends_items
    have hx : ∃ vs, Gives (readItems .skipped t) r (some vs) := by
      obtain hlast | ⟨q, vs, hq, hvs⟩ := ihds
      · exact ⟨_, readItems_last hv hlast⟩
      · exact ⟨_, readItems_more hv hq hvs⟩
    cases first with
    | true =>
      obtain rfl := hcomma
      exact fun _ => hx
    | false =>
      obtain ⟨vs, hx⟩ := hx
      exact .inr ⟨t, vs, Blanks.skip hcomma (by decide), hx⟩
  | @endMembers first _ _ hb =>
    cases first with
    | true => exact fun hne => absurd rfl hne
    | false => exact .inl (hb.skip (by decide))
  | @member first key d ms _ t u w z r hcomma hk hcolon _ hms ihd ihms =>
    obtain ⟨v, hv⟩ := ihd hms.ends_members
    have hx : ∀ ended, ∃ vs, Gives (readMembers .skipped ended t) r (some vs) := by
      intro ended
      obtain ⟨k, hk⟩ := hk.skipped_key ended
      obtain hlast | ⟨q, hq, hvs⟩ := ihms
      · exact ⟨_, readMembers_last hk (readColon_gives hcolon) hv hlast⟩
      · obtain ⟨vs, hvs⟩ := hvs (endAfterComma .skipped)
        exact ⟨_, readMembers_more hk (readColon_gives hcolon) hv hq hvs⟩
    cases first with
    | true =>
      obtain rfl := hcomma
      exact fun _ => hx
    | false => exact .inr ⟨t, Blanks.skip hcomma (by decide), hx⟩

/-- **A value is skipped**, whatever it is. -/
theorem skipValue_gives {d : Datum} (h : Spells (.value d) s r) (hr : Ends r) :
    Gives (skipValue s) r (some ()) := by
  obtain ⟨v, hv⟩ := skipped h hr
  exact hv.andThen fun _ => ⟨_, rfl⟩

end PaneRelay.Json
