import PaneRelay.Proofs.Json.Grammar
import PaneRelay.Json.Shape

/-! # The readers of tokens follow the grammar

Where the grammar has a string or a number, the reader takes just that off the text. A wanted string
is read as what it writes. One that is only skipped is taken off the same way, whatever its value.

* `Gives`: what a reader comes to, if what it is to read is known.
* `Letters.wanted`, `Letters.skipped`: strings.
* `readNumeral_gives`: numbers, in front of what ends them. -/

namespace PaneRelay.Json

open PaneRelay.Text

variable {s t r q : List Char} {α β : Type} {use : Use}

/-- **What a reader comes to:** a value and a rest, or a fault. -/
def Gives (x : Except Fault (Step s α)) (r : List Char) : Option α → Prop
  | some a => ∃ h, x = .ok ⟨a, r, h⟩
  | none => ∃ e, x = .error e

theorem Gives.of_eq {x : Except Fault (Step s α)} {y : Step s α} {a : α} (hx : x = .ok y)
    (ha : y.val = a) (hr : y.rest = r) : Gives x r (some a) := by
  subst ha hr
  exact ⟨y.shorter, hx⟩

section
variable {x : Except Fault (Step s α)} {f : Step s α → Except Fault (Step t β)}

theorem Gives.andThen {a : α} {o : Option β} (hx : Gives x r (some a))
    (hf : ∀ h, Gives (f ⟨a, r, h⟩) q o) : Gives (x >>= f) q o := by
  obtain ⟨h, rfl⟩ := hx
  exact hf h

theorem Gives.fails (hx : Gives x r none) : Gives (x >>= f) q none := by
  obtain ⟨e, rfl⟩ := hx
  exact ⟨e, rfl⟩

theorem Gives.bind {o : Option α} {g : α → Option β} (hx : Gives x r o)
    (hf : ∀ a h, o = some a → Gives (f ⟨a, r, h⟩) q (g a)) : Gives (x >>= f) q (o >>= g) := by
  cases o with
  | none => exact hx.fails
  | some a => exact hx.andThen fun h => hf a h rfl

theorem Gives.keep {f : Step s α → Except Fault (Step t α)} {o : Option α} (hx : Gives x r o)
    (hf : ∀ a h, Gives (f ⟨a, r, h⟩) q (some a)) : Gives (x >>= f) q o := by
  cases o with
  | none => exact hx.fails
  | some a => exact hx.andThen fun h => hf a h

theorem Gives.map {o : Option α} {g : α → β} (hx : Gives x r o)
    (hf : ∀ a h, Gives (f ⟨a, r, h⟩) q (some (g a))) : Gives (x >>= f) q (o.map g) := by
  cases o with
  | none => exact hx.fails
  | some a => exact hx.andThen fun h => hf a h

end

/-! ### Strings -/

theorem IsHex.lt {n : Nat} {c : Char} (h : IsHex n c) : n < 16 := by
  obtain ⟨row, hrow, hn⟩ := h
  have hlen : ∀ row ∈ hexRows, row.length = 16 := by decide
  rw [← hlen row hrow]
  exact (List.getElem?_eq_some_iff.mp hn).1

theorem IsHex.value {n : Nat} {c : Char} (h : IsHex n c) : hexValue? c = some n := by
  have hall : ∀ row ∈ hexRows, ∀ n : Fin 16, row[n.val]?.all fun c => hexValue? c = some n.val := by
    decide
  obtain ⟨row, hrow, hn⟩ := id h
  have hrow := hall row hrow ⟨n, h.lt⟩
  simpa [hn] using hrow

theorem Quad.value {n : Nat} (h : Quad n s r) : Gives (readHex s) r (some n) := by
  obtain ⟨ha, hb, hc, hd⟩ := h
  refine ⟨by simp only [List.length_cons]; omega, ?_⟩
  simp [readHex, hexQuad?, ha.value, hb.value, hc.value, hd.value]
  rfl

/-- A character is not half a surrogate pair. -/
theorem not_isHalf (c : Char) : isLeading c.toNat = false ∧ isTrailing c.toNat = false := by
  have hv : c.toNat < 0xD800 ∨ 0xDFFF < c.toNat ∧ c.toNat < 0x110000 := c.valid
  simp only [isLeading, isTrailing, Bool.and_eq_false_iff, decide_eq_false_iff_not]
  omega

theorem readUnicode_code {c : Char} (h : Quad c.toNat s r) (use : Use) :
    Gives (readUnicode use s) r (some c) := by
  obtain ⟨hlt, hx⟩ := h.value
  obtain ⟨hlead, htrail⟩ := not_isHalf c
  refine ⟨hlt, ?_⟩
  unfold readUnicode
  rw [hx]
  cases use <;> simp [hlead, htrail, bind, Except.bind, pure, Except.pure]

theorem joinPair_eq {c : Char} {hi lo : Nat}
    (h : c.toNat = 0x10000 + (hi - 0xD800) * 0x400 + (lo - 0xDC00)) : joinPair hi lo = c := by
  rw [joinPair, ← h, Char.ofNat_toNat]

theorem readUnicode_pair {c : Char} {hi lo : Nat} (hhi : 0xD800 ≤ hi ∧ hi < 0xDC00)
    (hlo : 0xDC00 ≤ lo ∧ lo < 0xE000)
    (hc : c.toNat = 0x10000 + (hi - 0xD800) * 0x400 + (lo - 0xDC00))
    (h1 : Quad hi s ('\\' :: 'u' :: t)) (h2 : Quad lo t r) :
    Gives (readUnicode .wanted s) r (some c) := by
  have hlead : isLeading hi = true ∧ isTrailing hi = false := by
    simp only [isLeading, isTrailing, Bool.and_eq_true, Bool.and_eq_false_iff, decide_eq_true_eq,
      decide_eq_false_iff_not]
    omega
  have htrail : isTrailing lo = true := by
    simp only [isTrailing, Bool.and_eq_true, decide_eq_true_eq]
    omega
  unfold readUnicode
  refine h1.value.andThen fun _ => ?_
  dsimp only
  rw [if_neg (by decide), if_neg (by simp [hlead.2]), if_neg (by simp [hlead.1])]
  refine h2.value.andThen fun _ => ?_
  dsimp only
  rw [if_pos htrail, joinPair_eq hc]
  exact ⟨_, rfl⟩

/-- Half a pair is taken off a string that is not wanted like any other number. -/
theorem readUnicode_skipped {n : Nat} (h : Quad n s r) :
    ∃ c, Gives (readUnicode .skipped s) r (some c) := by
  obtain ⟨hlt, hx⟩ := h.value
  refine ⟨if isLeading n || isTrailing n then placeholder else Char.ofNat n, hlt, ?_⟩
  unfold readUnicode
  rw [hx]
  rfl

theorem readEscape_unicode {c : Char} (h : Gives (readUnicode use s) r (some c)) :
    Gives (readEscape use ('u' :: s)) r (some c) := by
  obtain ⟨hlt, hx⟩ := h
  refine ⟨Nat.lt_succ_of_lt hlt, ?_⟩
  rw [readEscape, hx]
  rfl

theorem readEscape_short {e c : Char} (h : (e, c) ∈ shorthands) :
    Gives (readEscape use (e :: r)) r (some c) := by
  have hall : ∀ x ∈ shorthands, x.1 ≠ 'u' ∧ escaped? x.1 = some x.2 := by decide
  obtain ⟨hu, he⟩ := hall _ h
  refine ⟨Nat.lt_succ_self _, ?_⟩
  rw [readEscape]
  · simp only [he]
    rfl
  · exact hu

theorem readString_plain {c : Char} {cs : List Char} (hq : c ≠ '"') (hb : c ≠ '\\') (hc : ' ' ≤ c)
    (h : Gives (readString use t) r (some cs)) :
    Gives (readString use (c :: t)) r (some (c :: cs)) := by
  obtain ⟨hlt, hx⟩ := h
  refine ⟨Nat.lt_succ_of_lt hlt, ?_⟩
  rw [readString]
  · rw [if_neg (Char.not_lt.mpr hc), hx]
    rfl
  · exact hq
  · exact hb

theorem readString_escape {c : Char} {cs : List Char} (he : Gives (readEscape use s) t (some c))
    (h : Gives (readString use t) r (some cs)) :
    Gives (readString use ('\\' :: s)) r (some (c :: cs)) := by
  obtain ⟨hlt, hx⟩ := h
  obtain ⟨hlt', hx'⟩ := he
  refine ⟨Nat.lt_succ_of_lt (Nat.lt_trans hlt hlt'), ?_⟩
  rw [readString, hx']
  simp only [hx]
  rfl

/-- **A wanted string** is read as what it writes. -/
theorem Letters.wanted {cs : List Char} (h : Letters cs s r) :
    Gives (readString .wanted s) r (some cs) := by
  induction h with
  | done => exact ⟨Nat.lt_succ_self _, by rw [readString]; rfl⟩
  | more hc _ ih =>
    cases hc with
    | plain hq hb hle => exact readString_plain hq hb hle ih
    | short he => exact readString_escape (readEscape_short he) ih
    | code hn => exact readString_escape (readEscape_unicode (readUnicode_code hn _)) ih
    | pair h1 h2 h3 h4 hn hhi hlo =>
      exact readString_escape
        (readEscape_unicode (readUnicode_pair ⟨h1, h2⟩ ⟨h3, h4⟩ hn hhi hlo)) ih

/-- **A string that is not wanted** is taken off to its end. -/
theorem Letters.skipped {cs : List Char} (h : Letters cs s r) :
    ∃ cs', Gives (readString .skipped s) r (some cs') := by
  induction h with
  | done => exact ⟨[], Nat.lt_succ_self _, by rw [readString]; rfl⟩
  | more hc _ ih =>
    obtain ⟨cs', ih⟩ := ih
    cases hc with
    | plain hq hb hle => exact ⟨_, readString_plain hq hb hle ih⟩
    | short he => exact ⟨_, readString_escape (readEscape_short he) ih⟩
    | code hn => exact ⟨_, readString_escape (readEscape_unicode (readUnicode_code hn _)) ih⟩
    | pair _ _ _ _ _ hhi hlo =>
      -- the halves are taken off one after the other
      obtain ⟨c, hc⟩ := readUnicode_skipped hlo
      obtain ⟨d, hd⟩ := readUnicode_skipped hhi
      exact ⟨_, readString_escape (readEscape_unicode hd)
        (readString_escape (readEscape_unicode hc) ih)⟩

/-! ### Numbers -/

/-- No digit comes next. -/
def Undigit (s : List Char) : Prop := ∀ c r, s = c :: r → c.isDigit = false

theorem Digits.digits_eq {ds : List Char} (h : Digits ds s r) (hr : Undigit r) :
    digits s = ds ∧ afterDigits s = r := by
  obtain ⟨rfl, -, hall⟩ := h
  have hnone : r.takeWhile Char.isDigit = [] ∧ r.dropWhile Char.isDigit = r := by
    cases r with
    | nil => exact ⟨rfl, rfl⟩
    | cons c r =>
      have hc : ¬ c.isDigit = true := by simp [hr c r rfl]
      exact ⟨List.takeWhile_cons_of_neg hc, List.dropWhile_cons_of_neg hc⟩
  unfold digits afterDigits
  rw [List.takeWhile_append_of_pos hall, List.dropWhile_append_of_pos hall, hnone.1, hnone.2]
  exact ⟨List.append_nil ds, rfl⟩

theorem readWhole_gives {ds : List Char} (h : Whole ds s r) (hr : Undigit r) (use : Use) :
    Gives (readWhole use s) r (some ds) := by
  cases h with
  | zero =>
    have hnone : digits r = [] := by
      cases r with
      | nil => rfl
      | cons c r => exact List.takeWhile_cons_of_neg (by simp [hr c r rfl])
    exact ⟨Nat.lt_succ_self _, by rw [readWhole, if_pos hnone]; rfl⟩
  | @digits c ds _ _ hc hd =>
    obtain ⟨hds, hrest⟩ := hd.digits_eq hr
    obtain ⟨rfl, -, hall⟩ := hd
    have hdigit : c.isDigit = true := hall c List.mem_cons_self
    have htail : digits (ds ++ r) = ds ∧ afterDigits (ds ++ r) = r := by
      rw [List.cons_append, digits, List.takeWhile_cons_of_pos hdigit] at hds
      rw [List.cons_append, afterDigits, List.dropWhile_cons_of_pos hdigit] at hrest
      exact ⟨List.tail_eq_of_cons_eq hds, hrest⟩
    refine .of_eq (y := (skipDigits (ds ++ r)).step c (c :: digits (ds ++ r))) ?_
      (by rw [Rest.step, htail.1]) htail.2
    show readWhole use (c :: (ds ++ r)) = _
    rw [readWhole]
    · exact if_pos hdigit
    · exact hc

theorem readFraction_gives {f : Option (List Char)} (h : Fraction f s r) (hr : Undigit r)
    (hdot : f = none → ∀ q, r ≠ '.' :: q) (use : Use) :
    ∃ hle, readFraction use s = .ok (f, ⟨r, hle⟩) := by
  cases h with
  | absent =>
    refine ⟨Nat.le_refl _, ?_⟩
    rw [readFraction]
    · rfl
    · exact hdot rfl
  | @digits ds s _ hd =>
    obtain ⟨hds, hrest⟩ := hd.digits_eq hr
    have hne : ¬ digits s = [] := by rw [hds]; exact hd.ne
    rw [readFraction, if_neg hne, hds]
    exact ⟨hrest ▸ ((skipDigits s).after '.').2,
      congrArg (fun x => Except.ok (some ds, x)) (Subtype.ext hrest)⟩

theorem exponent_mark {e : Char} (h : e ∈ ['e', 'E']) : e = 'e' ∨ e = 'E' := by simpa using h

/-- The digits of an exponent, from where its sign leaves off. -/
theorem readExponent_digits {e : Char} {ds : List Char} (he : e ∈ ['e', 'E'])
    (hd : Digits ds (readSign t).2.1 r) (hr : Undigit r) (use : Use) :
    ∃ hle, readExponent use (e :: t) = .ok (some ((readSign t).1, ds), ⟨r, hle⟩) := by
  obtain ⟨hds, hrest⟩ := hd.digits_eq hr
  have hne : ¬ digits (readSign t).2.1 = [] := by rw [hds]; exact hd.ne
  have hx : readExponent use (e :: t) = .ok (some ((readSign t).1, digits (readSign t).2.1),
      ((skipDigits (readSign t).2.1).within (readSign t).2.2).after e) := by
    rw [readExponent, if_pos (exponent_mark he)]
    exact if_neg hne
  rw [hx, hds]
  exact ⟨hrest ▸ (((skipDigits (readSign t).2.1).within (readSign t).2.2).after e).2,
    congrArg (fun y => Except.ok (some ((readSign t).1, ds), y)) (Subtype.ext hrest)⟩

theorem readSign_of_digits {ds : List Char} (h : Digits ds s r) :
    readSign s = (false, .whole s) := by
  obtain ⟨rfl, hne, hall⟩ := h
  obtain ⟨d, ds', rfl⟩ := List.exists_cons_of_ne_nil hne
  have hd : d.isDigit = true := hall d List.mem_cons_self
  rw [readSign]
  · rintro q ⟨⟩
    exact absurd hd (by decide)
  · rintro q ⟨⟩
    exact absurd hd (by decide)

theorem readExponent_gives {e : Option (Bool × List Char)} (h : Exponent e s r) (hr : Undigit r)
    (he : e = none → ∀ c q, r = c :: q → c ≠ 'e' ∧ c ≠ 'E') (use : Use) :
    ∃ hle, readExponent use s = .ok (e, ⟨r, hle⟩) := by
  cases h with
  | absent =>
    refine ⟨Nat.le_refl _, ?_⟩
    cases s with
    | nil => rfl
    | cons c q =>
      have hc : ¬ (c = 'e' ∨ c = 'E') := not_or.mpr (he rfl c q rfl)
      rw [readExponent, if_neg hc]
      rfl
  | @plain e ds t _ hmem hd =>
    have hsign := readSign_of_digits hd
    have hx := readExponent_digits (t := t) hmem (by rwa [hsign]) hr use
    rwa [hsign] at hx
  | plus hmem hd => exact readExponent_digits (t := '+' :: _) hmem hd hr use
  | minus hmem hd => exact readExponent_digits (t := '-' :: _) hmem hd hr use

/-- **A number** is read up to what ends it. -/
theorem readNumeral_gives {x : Numeral} (h : Magnitude x s r) (hr : Ends r) (use : Use) :
    Gives (readNumeral use x.negative s) r (some x) := by
  obtain ⟨negative, whole, fraction, exponent⟩ := x
  obtain ⟨t, u, hw, hf, he⟩ := h.parts
  have hend : ∀ c q, r = c :: q → c.isDigit = false ∧ c ≠ '.' ∧ c ≠ 'e' ∧ c ≠ 'E' := by
    rintro c q rfl
    exact hr.head
  have hr0 : Undigit r := fun c q hq => (hend c q hq).1
  -- what follows the fraction, and what follows the digits before it
  have hu : Undigit u ∧ ∀ q, u ≠ '.' :: q := by
    have hmark : ∀ e ∈ ['e', 'E'], e.isDigit = false ∧ e ≠ '.' := by simp
    cases he with
    | absent => exact ⟨hr0, fun q hq => (hend _ q hq).2.1 rfl⟩
    | plain hm _ | plus hm _ | minus hm _ =>
      refine ⟨?_, ?_⟩
      · rintro c q ⟨⟩
        exact (hmark _ hm).1
      · rintro q ⟨⟩
        exact (hmark _ hm).2 rfl
  have ht : Undigit t := by
    cases hf with
    | absent => exact hu.1
    | digits _ =>
      rintro c q ⟨⟩
      decide
  obtain ⟨hlt, h1⟩ := readWhole_gives hw ht use
  obtain ⟨hle2, h2⟩ := readFraction_gives hf hu.1 (fun _ => hu.2) use
  obtain ⟨hle3, h3⟩ := readExponent_gives he hr0 (fun _ c q hq => (hend c q hq).2.2) use
  refine ⟨lt_of_le_le_lt hle3 hle2 hlt, ?_⟩
  simp only [readNumeral, h1, bind, Except.bind, h2, h3]
  rfl

end PaneRelay.Json
