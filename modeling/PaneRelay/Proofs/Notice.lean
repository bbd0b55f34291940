import PaneRelay.Proofs.Hub.Control
import PaneRelay.Proofs.Json.Quoting
import PaneRelay.Proofs.Json.Reading

/-! # Notices are read back as they were written

Whatever a notice says, its text can be read, and says the same. So a consumer that sends a text
that is no control message can read the answer to it.

* `readMembers_notice`: what is read of the members of a notice.
* `notices_survive`: notices and their texts. -/

namespace PaneRelay.Notice

open PaneRelay.Json PaneRelay.Text

variable {s t r : List Char}

/-! ### Steps of the reader -/

theorem readKind_gives (h : Quoted "error" s r) : Gives (readKind s) r (some ()) := by
  obtain ⟨t, hb, ht⟩ := h
  have hs := hb.skip (by decide)
  unfold readKind
  split
  · next h1 => cases hs.symm.trans h1
  · next h1 =>
    cases hs.symm.trans h1
    rw [if_pos rfl]
    refine ht.wanted.andThen fun _ => ?_
    exact ⟨_, if_pos rfl⟩

/-- The kind is taken off and does not count among the members. -/
theorem readMembers_kind {first : Bool} {ms : List (String × Tree)} {u q : List Char}
    (hcomma : Comma first s t) (hkey : Quoted "type" t (':' :: u)) (hkind : Quoted "error" u r)
    (hx : Gives (readMembers false true r) q (some ms)) :
    Gives (readMembers first false s) q (some ms) := by
  obtain ⟨_, hnext⟩ := nextKey_some hcomma hkey
  rw [readMembers, hnext, ok_bind]
  dsimp only
  rw [if_pos rfl]
  refine (readColon_gives .done).andThen fun _ => ?_
  refine (readKind_gives hkind).andThen fun _ => ?_
  exact hx.andThen fun _ => ⟨_, rfl⟩

/-- Another member, if it is a string. -/
theorem readMembers_string {first tagged : Bool} {ms : List (String × Tree)} {key a : String}
    {u q : List Char} (hcomma : Comma first s t) (hkey : Quoted key t (':' :: u))
    (hne : key ≠ "type") (ha : Quoted a u r) (hx : Gives (readMembers false tagged r) q (some ms)) :
    Gives (readMembers first tagged s) q (some ((key, .string a) :: ms)) := by
  obtain ⟨_, hnext⟩ := nextKey_some hcomma hkey
  obtain ⟨w, hb, hw⟩ := ha
  have hstring := readTree_string (hb.skip (by decide)) hw.wanted
  rw [String.ofList_toList] at hstring
  rw [readMembers, hnext, ok_bind]
  dsimp only
  rw [if_neg hne]
  refine (readColon_gives .done).andThen fun _ => ?_
  refine hstring.andThen fun _ => ?_
  exact hx.andThen fun _ => ⟨_, rfl⟩

theorem readMembers_end {first : Bool} (hs : skipBlanks s = '\x7d' :: r) :
    Gives (readMembers first true s) r (some []) := by
  rw [readMembers, nextKey_none hs, ok_bind]
  dsimp only
  split
  · next h1 => cases hs.symm.trans h1
  · next h1 =>
    cases hs.symm.trans h1
    exact ⟨_, rfl⟩

/-! ### Notices and their texts -/

variable {m : String}

/-- The characters of a notice's text. -/
theorem toList_text (m : String) : (Notice.error m).text.toList =
    '\x7b' :: (quoteChars "type".toList ++ ':' :: (quoteChars "error".toList ++ ',' ::
      (quoteChars "message".toList ++ ':' :: (quoteChars m.toList ++ ['\x7d'])))) := by
  have hhead : "\x7b\"type\":\"error\",\"message\":".toList =
      '\x7b' :: (quoteChars "type".toList ++ ':' :: (quoteChars "error".toList ++ ',' ::
        (quoteChars "message".toList ++ [':']))) := by decide
  have hlast : "\x7d".toList = ['\x7d'] := by decide
  show (_ ++ quote m ++ _ : String).toList = _
  rw [String.toList_append, String.toList_append, toList_quote]
  refine (congrArg₂ (fun s t => s ++ quoteChars m.toList ++ t) hhead hlast).trans ?_
  simp only [List.cons_append, List.append_assoc, List.nil_append]

/-- **What is read of the members of a notice.** -/
theorem readMembers_notice (m : String) : Gives (readMembers true false
    (quoteChars "type".toList ++ ':' :: (quoteChars "error".toList ++ ',' ::
      (quoteChars "message".toList ++ ':' :: (quoteChars m.toList ++ ['\x7d']))))) []
    (some [("message", .string m)]) := by
  have hend : Gives (readMembers false true ['\x7d']) [] (some []) := readMembers_end rfl
  have hcomma : ∀ t, Comma false (',' :: t) t := fun _ => Blanks.done
  have hmessage := readMembers_string (hcomma _) (quoted_quoteChars "message" _) (by decide)
    (quoted_quoteChars m _) hend
  exact readMembers_kind rfl (quoted_quoteChars "type" _) (quoted_quoteChars "error" _) hmessage

/-- **A notice is read back** from its text. -/
theorem parse_text (m : String) : parse (Notice.error m).text = .ok (.error m) := by
  obtain ⟨_, hx⟩ := readMembers_notice m
  have hopen : ∀ t, skipBlanks ('\x7b' :: t) = '\x7b' :: t := fun _ => Blanks.done.skip (by decide)
  unfold parse readNotice
  rw [toList_text, hopen]
  dsimp only
  rw [if_pos rfl, hx]
  rfl

/-- **No control character** is written. -/
theorem le_of_mem_text {c : Char} (h : c ∈ (Notice.error m).text.toList) : ' ' ≤ c := by
  have hmark : ∀ c ∈ ['\x7b', ':', ',', '\x7d'], ' ' ≤ c := by simp
  rw [toList_text] at h
  simp only [List.mem_cons, List.mem_append, List.not_mem_nil, or_false] at h
  rcases h with rfl | h | rfl | h | rfl | h | rfl | h | rfl
  · exact hmark _ (by decide)
  · exact le_of_mem_quoteChars h
  · exact hmark _ (by decide)
  · exact le_of_mem_quoteChars h
  · exact hmark _ (by decide)
  · exact le_of_mem_quoteChars h
  · exact hmark _ (by decide)
  · exact le_of_mem_quoteChars h
  · exact hmark _ (by decide)

/-! ### The answer to a text that is no control message -/

/-- A text that is no control message cannot be decoded. -/
theorem decode_of_parse {text : String} {e : Control.ControlError}
    (h : Control.parse text = .error e) :
    ∃ f, decode Control.shape text = .error f ∧ e = .malformed (f.report text) := by
  cases hd : decode Control.shape text with
  | error f =>
    rw [Hub.parse_of_error hd] at h
    cases h
    exact ⟨f, rfl, rfl⟩
  | ok v =>
    obtain ⟨action, listed, rfl⟩ := Hub.message_of_decode hd
    rw [Hub.parse_of_message hd] at h
    cases h

/-- **Notices survive the way to the consumer.** The text of a notice is read back as the notice, it
has none of the control characters that JSON does not allow in a string, and different messages have
different texts. So if the consumer sends a text that is no control message, then the notice that is
queued for it, if there is room, is read as an error with the wording of what was wrong. -/
theorem notices_survive :
    (∀ m, parse (Notice.error m).text = .ok (.error m)) ∧
    (∀ m, ∀ c ∈ (Notice.error m).text.toList, ' ' ≤ c) ∧
    (∀ m n, (Notice.error m).text = (Notice.error n).text → m = n) ∧
    ∀ (text : String) (e : Control.ControlError), Control.parse text = .error e →
      parse (ofControlError e).text = .ok (.error e.message) ∧
      ∀ (h : Hub) (id : Nat), (h.receive id text).connections = h.connections.map fun c =>
        if c.id = id ∧ c.outbox.hasRoom h.policy.sendQueueCapacity = true then
          { c with outbox :=
            { c.outbox with log := c.outbox.log ++ [.text (ofControlError e).text] } }
        else c := by
  refine ⟨parse_text, fun m c => le_of_mem_text, ?_, ?_⟩
  · intro m n heq
    have hn := parse_text n
    rw [← heq, parse_text m] at hn
    cases hn
    rfl
  · intro text e he
    obtain ⟨f, hf, rfl⟩ := decode_of_parse he
    exact ⟨parse_text _, fun h id => (Hub.refused_receive hf h id).answered⟩

/-- The answer to an empty text. -/
theorem notices_survive_empty : ∃ e, Control.parse "" = .error e ∧
    parse (ofControlError e).text = .ok (.error e.message) := by
  have hd : ∃ f, decode Control.shape "" = .error f := by
    unfold decode Control.shape
    rw [readShape]
    exact ⟨_, rfl⟩
  obtain ⟨f, hf⟩ := hd
  have he := Hub.parse_of_error hf
  exact ⟨_, he, (notices_survive.2.2.2 "" _ he).1⟩

end PaneRelay.Notice
