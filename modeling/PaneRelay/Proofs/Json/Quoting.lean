import PaneRelay.Proofs.Json.Grammar
import PaneRelay.Json.Printer

/-! # Quoted strings follow the grammar

A string between quotes, its quotes, backslashes and control characters escaped, is a string of the
grammar, and no control character is left in it.

* `escapeChar_cases`: how a character is escaped.
* `quoted_quoteChars`: what is written is the string.
* `le_of_mem_quoteChars`: no control character is written. -/

namespace PaneRelay.Json

variable {c d : Char} {r : List Char}

/-- **How a character is escaped:** by a letter, by its number or not at all. -/
theorem escapeChar_cases (c : Char) :
    (∃ e, (e, c) ∈ shorthands ∧ escapeChar c = ['\\', e]) ∨
    (c < ' ' ∧ escapeChar c =
      ['\\', 'u', '0', '0', hexDigit (c.toNat / 16), hexDigit (c.toNat % 16)]) ∨
    (c ≠ '"' ∧ c ≠ '\\' ∧ ' ' ≤ c ∧ escapeChar c = [c]) := by
  have hshort : ∀ c ∈ ['"', '\\', '\x08', '\t', '\n', '\x0c', '\r'],
      ∃ x ∈ shorthands, x.2 = c ∧ escapeChar c = ['\\', x.1] := by simp [shorthands, escapeChar]
  by_cases hc : c ∈ ['"', '\\', '\x08', '\t', '\n', '\x0c', '\r']
  · obtain ⟨⟨e, _⟩, he, rfl, h⟩ := hshort c hc
    exact .inl ⟨e, he, h⟩
  · simp only [List.mem_cons, List.not_mem_nil, or_false, not_or] at hc
    obtain ⟨h1, h2, h3, h4, h5, h6, h7⟩ := hc
    unfold escapeChar
    rw [if_neg h1, if_neg h2, if_neg h3, if_neg h4, if_neg h5, if_neg h6, if_neg h7]
    split
    · next hlt => exact .inr (.inl ⟨hlt, rfl⟩)
    · next hle => exact .inr (.inr ⟨h1, h2, Char.not_lt.mp hle, rfl⟩)

theorem isHex_hexDigit {n : Nat} (h : n < 16) : IsHex n (hexDigit n) := by
  have hall : ∀ n < 16, ("0123456789abcdef".toList)[n]? = some (hexDigit n) := by decide
  exact ⟨_, List.mem_cons_self, hall n h⟩

theorem letter_escapeChar (c : Char) (r : List Char) : Letter c (escapeChar c ++ r) r := by
  obtain ⟨e, he, h⟩ | ⟨hlt, h⟩ | ⟨hq, hb, hle, h⟩ := escapeChar_cases c
  · rw [h]
    exact .short he
  · rw [h]
    -- below 32 the first two of the four digits are zeros
    have hn : c.toNat < 32 := hlt
    have hquad : Quad (((0 * 16 + 0) * 16 + c.toNat / 16) * 16 + c.toNat % 16)
        (['0', '0', hexDigit (c.toNat / 16), hexDigit (c.toNat % 16)] ++ r) r :=
      .mk (isHex_hexDigit (by omega)) (isHex_hexDigit (by omega)) (isHex_hexDigit (by omega))
        (isHex_hexDigit (by omega))
    have heq : ((0 * 16 + 0) * 16 + c.toNat / 16) * 16 + c.toNat % 16 = c.toNat := by omega
    rw [heq] at hquad
    exact .code hquad
  · rw [h]
    exact .plain hq hb hle

theorem letters_escaped (cs r : List Char) :
    Letters cs (cs.flatMap escapeChar ++ '"' :: r) r := by
  induction cs with
  | nil => exact .done
  | cons c cs ih =>
    rw [List.flatMap_cons, List.append_assoc]
    exact .more (letter_escapeChar c _) ih

/-- **A quoted string is the string**, whatever follows. -/
theorem quoted_quoteChars (a : String) (r : List Char) : Quoted a (quoteChars a.toList ++ r) r := by
  have hx := letters_escaped a.toList r
  rw [List.append_cons] at hx
  exact ⟨_, .done, hx⟩

theorem toList_quote (a : String) : (quote a).toList = quoteChars a.toList := String.toList_ofList

theorem le_of_mem_escapeChar (h : d ∈ escapeChar c) : ' ' ≤ d := by
  have hmark : ∀ x ∈ shorthands, ∀ d ∈ ['\\', x.1], ' ' ≤ d := by simp [shorthands]
  have hhex : ∀ n < 16, ' ' ≤ hexDigit n := by decide
  have hzero : ∀ d ∈ ['\\', 'u', '0', '0'], ' ' ≤ d := by simp
  obtain ⟨e, he, heq⟩ | ⟨hlt, heq⟩ | ⟨-, -, hle, heq⟩ := escapeChar_cases c
  · rw [heq] at h
    exact hmark _ he d h
  · have hn : c.toNat < 32 := hlt
    rw [heq] at h
    obtain h | h := List.mem_append (s := ['\\', 'u', '0', '0']).mp h
    · exact hzero d h
    · obtain rfl | h := List.mem_cons.mp h
      · exact hhex _ (by omega)
      · obtain rfl := List.mem_singleton.mp h
        exact hhex _ (by omega)
  · rw [heq] at h
    obtain rfl := List.mem_singleton.mp h
    exact hle

/-- **No control character is written.** -/
theorem le_of_mem_quoteChars {cs : List Char} (h : d ∈ quoteChars cs) : ' ' ≤ d := by
  obtain rfl | h := List.mem_cons.mp h
  · decide
  · obtain h | h := List.mem_append.mp h
    · obtain ⟨c, -, hc⟩ := List.mem_flatMap.mp h
      exact le_of_mem_escapeChar hc
    · obtain rfl := List.mem_singleton.mp h
      decide

end PaneRelay.Json
