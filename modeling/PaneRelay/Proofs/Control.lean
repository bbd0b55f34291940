import PaneRelay.Proofs.Json.Quoting
import PaneRelay.Proofs.Json.Reading
import PaneRelay.Control

/-! # Control messages are read by what they mean

A control message may be written in any way that JSON allows. It counts what value is written, and
of the value only the action and the IDs.

* `Asks`: which values are control messages, with their action and the IDs listed.
* `Tells`: what is read of an action and IDs.
* `parse_by_meaning`: a text that writes a value is read if and only if the value is a control
  message, and then it is read as that message. -/

namespace PaneRelay.Control

open PaneRelay.Json

/-- **Values that are control messages.** An object has one member `action`, which is a string, and
at most one member `paneIds`, which is an array of strings; the other members do not count. An array
has the two in this order, and the second may be missing. -/
inductive Asks : Datum → String → List PaneId → Prop where
  | object {ms action listed} : valuesOf "action" ms = [.string action] →
      valuesOf "paneIds" ms = [.list (listed.map .string)] → Asks (.object ms) action listed
  | objectAlone {ms action} : valuesOf "action" ms = [.string action] →
      valuesOf "paneIds" ms = [] → Asks (.object ms) action []
  | list {action listed} :
      Asks (.list [.string action, .list (listed.map .string)]) action listed
  | listAlone {action} : Asks (.list [.string action]) action []

/-- The IDs that are kept: those that are not empty, in order. -/
def kept (listed : List PaneId) : List PaneId := listed.filter (· ≠ "")

/-- **What a message is** that has an action and lists some IDs. -/
structure Tells (m : Message) (action : String) (listed : List PaneId) : Prop where
  request : m.request = if action = "subscribe" then .subscribe (kept listed)
    else if action = "unsubscribe" then .unsubscribe (kept listed) else .unknown action
  rejected : m.rejected = listed.count ""
  all : m.rejected + (kept listed).length = listed.length

/-! ### The form of a message -/

theorem reading_text {d : Datum} {v : Value} :
    Shape.text.reading d = some v ↔ ∃ a, d = .string a ∧ v = .text a := by
  simp only [Shape.reading, Option.map_eq_some_iff, string?_eq_some, @eq_comm _ v]

theorem reading_texts {d : Datum} {v : Value} :
    Shape.texts.reading d = some v ↔
      ∃ l : List String, d = .list (l.map .string) ∧ v = .texts l := by
  simp only [Shape.reading, Option.map_eq_some_iff, strings?_eq_some, @eq_comm _ v]

theorem reading_object (ms : List (String × Datum)) : shape.reading (.object ms) =
    (fieldReading none Shape.text.reading (valuesOf "action" ms)).bind fun a =>
      (fieldReading (some (.texts [])) Shape.texts.reading (valuesOf "paneIds" ms)).map fun b =>
        .record [a, b] := by
  show (membersReading _ ms).map Value.record = _
  unfold membersReading membersReading membersReading
  cases fieldReading none Shape.text.reading (valuesOf "action" ms) with
  | none => rfl
  | some a => cases fieldReading (some (.texts [])) Shape.texts.reading _ <;> rfl

theorem reading_pair (d e : Datum) : shape.reading (.list [d, e]) =
    (Shape.text.reading d).bind fun a => (Shape.texts.reading e).map fun b => .record [a, b] := by
  show (itemsReading _ [d, e]).map Value.record = _
  unfold itemsReading itemsReading itemsReading
  cases Shape.text.reading d with
  | none => rfl
  | some a => cases Shape.texts.reading e <;> rfl

theorem reading_single (d : Datum) : shape.reading (.list [d]) =
    (Shape.text.reading d).map fun a => .record [a, .texts []] := by
  show (itemsReading _ [d]).map Value.record = _
  unfold itemsReading itemsReading
  cases Shape.text.reading d <;> rfl

theorem reading_longer (d e f : Datum) (ds : List Datum) :
    shape.reading (.list (d :: e :: f :: ds)) = none := by
  show (itemsReading _ _).map Value.record = _
  unfold itemsReading itemsReading itemsReading
  cases Shape.text.reading d with
  | none => rfl
  | some a => cases Shape.texts.reading e <;> rfl

/-- **The values that are read** are the control messages. -/
theorem reading_shape {d : Datum} {v : Value} : shape.reading d = some v ↔
    ∃ action listed, Asks d action listed ∧ v = .record [.text action, .texts listed] := by
  constructor
  · intro h
    match d, h with
    | .object ms, h =>
      rw [reading_object] at h
      obtain ⟨a, ha, h⟩ := Option.bind_eq_some_iff.mp h
      obtain ⟨b, hb, rfl⟩ := Option.map_eq_some_iff.mp h
      obtain ⟨-, ⟨⟩⟩ | ⟨d, hd, ha⟩ := fieldReading_eq_some.mp ha
      obtain ⟨action, rfl, rfl⟩ := reading_text.mp ha
      obtain ⟨he, ⟨⟩⟩ | ⟨e, he, hb⟩ := fieldReading_eq_some.mp hb
      · exact ⟨action, [], .objectAlone hd he, rfl⟩
      · obtain ⟨listed, rfl, rfl⟩ := reading_texts.mp hb
        exact ⟨action, listed, .object hd he, rfl⟩
    | .list [d], h =>
      rw [reading_single] at h
      obtain ⟨a, ha, rfl⟩ := Option.map_eq_some_iff.mp h
      obtain ⟨action, rfl, rfl⟩ := reading_text.mp ha
      exact ⟨action, [], .listAlone, rfl⟩
    | .list [d, e], h =>
      rw [reading_pair] at h
      obtain ⟨a, ha, h⟩ := Option.bind_eq_some_iff.mp h
      obtain ⟨b, hb, rfl⟩ := Option.map_eq_some_iff.mp h
      obtain ⟨action, rfl, rfl⟩ := reading_text.mp ha
      obtain ⟨listed, rfl, rfl⟩ := reading_texts.mp hb
      exact ⟨action, listed, .list, rfl⟩
    | .list (_ :: _ :: _ :: _), h => exact nomatch (reading_longer _ _ _ _).symm.trans h
  · rintro ⟨action, listed, h, rfl⟩
    have ha := reading_text.mpr ⟨action, rfl, rfl⟩
    have hb := reading_texts.mpr ⟨listed, rfl, rfl⟩
    cases h with
    | object hd he => rw [reading_object, hd, he, fieldReading, fieldReading, ha, hb]; rfl
    | objectAlone hd he => rw [reading_object, hd, he, fieldReading, fieldReading, ha]; rfl
    | list => rw [reading_pair, ha, hb]; rfl
    | listAlone => rw [reading_single, ha]; rfl

theorem tells_of (action : String) (listed : List PaneId) :
    Tells (.of action listed) action listed := by
  have hkept : listed.filter (fun id => !id.isEmpty) = kept listed :=
    List.filter_congr fun id _ => by rw [Bool.eq_iff_iff]; simp
  have hcount : listed.count "" + (kept listed).length = listed.length := by
    have hsplit := List.length_eq_countP_add_countP (· == "") (l := listed)
    simpa [kept, ← List.countP_eq_length_filter, List.count] using hsplit.symm
  unfold Message.of
  rw [hkept]
  exact ⟨rfl, by dsimp only; omega, by dsimp only; omega⟩

/-- **A text is read by what it means.** -/
theorem parse_by_meaning {d : Datum} {text : String} (h : d.WrittenAs text) :
    ((∃ m, parse text = .ok m) ↔ ∃ action listed, Asks d action listed) ∧
      ∀ action listed, Asks d action listed → ∃ m, parse text = .ok m ∧ Tells m action listed := by
  have hkeys : shape.keyed = true := by decide
  have hread := decode_eq hkeys h
  -- both halves come from what the value means, since the text is decoded to that or not at all
  have hasks : ∀ action listed, Asks d action listed →
      ∃ m, parse text = .ok m ∧ Tells m action listed := by
    intro action listed ha
    rw [reading_shape.mpr ⟨action, listed, ha, rfl⟩] at hread
    refine ⟨_, ?_, tells_of action listed⟩
    unfold parse
    cases hd : decode shape text with
    | error f => rw [hd] at hread; cases hread
    | ok v => rw [hd] at hread; cases hread; rfl
  refine ⟨⟨?_, ?_⟩, hasks⟩
  · rintro ⟨m, hm⟩
    unfold parse at hm
    cases hd : decode shape text with
    | error f => rw [hd] at hm; cases hm
    | ok v =>
      rw [hd] at hread
      obtain ⟨action, listed, ha, -⟩ := reading_shape.mp hread.symm
      exact ⟨action, listed, ha⟩
  · rintro ⟨action, listed, ha⟩
    obtain ⟨m, hm, -⟩ := hasks action listed ha
    exact ⟨m, hm⟩

/-! ### A message in another spelling -/

/-- A control message with members that do not count and with an empty ID. -/
def sample : Datum :=
  .object [("x", .list [.number ⟨true, ['1'], none, some (false, ['9'])⟩]),
    ("action", .string "subscribe"), ("paneIds", .list [.string "%1", .string "😀", .string ""]),
    ("x", .null)]

/-- The message with a blank before it and with numbers for some characters. -/
def sampleText : String :=
  " \x7b\"x\":[-1e9],\"\\u0061ction\":\"subscribe\"," ++
    "\"paneIds\":[\"%1\",\"\\ud83d\\ude00\",\"\"],\"x\":null\x7d"

theorem sample_writtenAs : sample.WrittenAs sampleText := by
  have hx : ∀ r, Quoted "x" ('"' :: 'x' :: '"' :: r) r := quoted_quoteChars "x"
  have hone : ∀ r, Digits ['1'] ('1' :: r) r := fun _ => ⟨rfl, by simp, by simp⟩
  have hnine : ∀ r, Digits ['9'] ('9' :: r) r := fun _ => ⟨rfl, by simp, by simp⟩
  have hnum : ∀ r, Figure ⟨true, ['1'], none, some (false, ['9'])⟩
      ('-' :: '1' :: 'e' :: '9' :: r) r := fun _ =>
    .minus rfl ⟨_, _, .digits (by decide) (hone _), .absent, .plain (by decide) (hnine _)⟩
  have hhex : ∀ n c, "0123456789abcdef".toList[n]? = some c → IsHex n c :=
    fun _ _ h => ⟨_, List.mem_cons_self, h⟩
  have ha : ∀ r, Letter 'a' ('\\' :: 'u' :: '0' :: '0' :: '6' :: '1' :: r) r := fun _ =>
    .code (.mk (hhex 0 '0' rfl) (hhex 0 '0' rfl) (hhex 6 '6' rfl) (hhex 1 '1' rfl))
  have hhi : ∀ r, Quad 0xD83D ('d' :: '8' :: '3' :: 'd' :: r) r := fun _ =>
    .mk (hhex 13 'd' rfl) (hhex 8 '8' rfl) (hhex 3 '3' rfl) (hhex 13 'd' rfl)
  have hlo : ∀ r, Quad 0xDE00 ('d' :: 'e' :: '0' :: '0' :: r) r := fun _ =>
    .mk (hhex 13 'd' rfl) (hhex 14 'e' rfl) (hhex 0 '0' rfl) (hhex 0 '0' rfl)
  unfold sampleText
  refine ⟨[], ?_, .done⟩
  simp only [String.toList_append, String.reduceToList, List.cons_append, List.nil_append]
  refine .object (.more (by decide) .done) ?_
  refine .member rfl (hx _) .done
    (.list .done (.item rfl (.number .done (hnum _)) (.endItems .done))) ?_
  refine .member .done ⟨_, .done, .more (ha _) (letters_escaped "ction".toList _)⟩ .done
    (.string (quoted_quoteChars "subscribe" _)) ?_
  refine .member .done (quoted_quoteChars "paneIds" _) .done ?_
    (.member .done (hx _) .done (.null .done) (.endMembers .done))
  refine .list .done (.item rfl (.string (quoted_quoteChars "%1" _)) (.item .done ?_
    (.item .done (.string (quoted_quoteChars "" _)) (.endItems .done))))
  exact .string ⟨_, .done, .more (.pair (by decide) (by decide) (by decide) (by decide) (by decide)
    (hhi _) (hlo _)) .done⟩

theorem parse_by_meaning_spelled : sample.WrittenAs sampleText ∧
    ∃ m, parse sampleText = .ok m ∧ Tells m "subscribe" ["%1", "😀", ""] :=
  ⟨sample_writtenAs, (parse_by_meaning sample_writtenAs).2 _ _ (.object rfl rfl)⟩

end PaneRelay.Control
