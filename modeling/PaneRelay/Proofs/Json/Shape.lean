import PaneRelay.Json.Shape

/-! # Values fit the shapes they are read as

Whatever a text holds, reading it as a value of a shape ends with a fault or with a value of that
shape: numbers are in their range, and a record has all of its fields in order, each of them read or
taken from a default. A shape whose defaults do not fit would let other values in, so they have to.

* `fits`, `fitsAll`: a value of a shape, and fields in order.
* `Shape.sound`: all defaults fit.
* `Reads`: what is to be shown of the three readers at a text; `reads` shows it by induction on the
  length of the text.
* `fits_of_decode`: a text that is read gives a value of the shape. -/

namespace PaneRelay.Json

open PaneRelay.Text

theorem bind_eq_ok {ε α β : Type} {x : Except ε α} {f : α → Except ε β} {b : β} :
    (x >>= f) = .ok b ↔ ∃ a, x = .ok a ∧ f a = .ok b := by
  cases x with
  | error e =>
    refine iff_of_false (fun h => nomatch h) ?_
    rintro ⟨a, h, -⟩
    cases h
  | ok a =>
    refine ⟨fun h => ⟨a, rfl, h⟩, ?_⟩
    rintro ⟨_, h, hf⟩
    cases h
    exact hf

/-! ### Values of a shape -/

mutual

/-- **Whether a value is of a shape.** -/
def fits : Shape → Value → Bool
  | .word w, .word n => n < w.bound
  | .text, .text _ => true
  | .texts, .texts _ => true
  | .record _ fields, .record vs => fitsAll fields vs
  | _, _ => false

/-- Whether values are those of some fields, in order. -/
def fitsAll : List (String × Shape × Option Value) → List Value → Bool
  | [], [] => true
  | (_, shape, _) :: fields, v :: vs => fits shape v && fitsAll fields vs
  | _, _ => false

end

mutual

/-- **Whether all defaults of a shape fit.** -/
def Shape.sound : Shape → Bool
  | .record _ fields => soundAll fields
  | _ => true

/-- Whether the defaults of some fields fit. -/
def soundAll : List (String × Shape × Option Value) → Bool
  | [] => true
  | (_, shape, default?) :: fields => shape.sound && default?.all (fits shape) && soundAll fields

end

theorem soundAll_cons {key : String} {shape : Shape} {default? : Option Value}
    {fields : List (String × Shape × Option Value)}
    (h : soundAll ((key, shape, default?) :: fields) = true) :
    shape.sound = true ∧ (∀ v, default? = some v → fits shape v = true) ∧
      soundAll fields = true := by
  simp only [soundAll, Bool.and_eq_true] at h
  refine ⟨h.1.1, fun v hv => ?_, h.2⟩
  have hall := h.1.2
  rw [hv] at hall
  exact hall

/-- The shapes of sound fields are sound. -/
theorem sound_of_getElem? {fields : List (String × Shape × Option Value)}
    (h : soundAll fields = true) {i : Nat} {f : String × Shape × Option Value}
    (hf : fields[i]? = some f) : f.2.1.sound = true := by
  induction fields generalizing i with
  | nil => cases hf
  | cons g fields ih =>
    obtain ⟨key, shape, default?⟩ := g
    obtain ⟨hshape, -, hrest⟩ := soundAll_cons h
    cases i with
    | zero => cases hf; exact hshape
    | succ i => exact ih hrest hf

/-! ### Fields that were left out -/

theorem fits_of_fillTail {name : String} {count index : Nat}
    {fields : List (String × Shape × Option Value)} {vs : List Value}
    (h : soundAll fields = true) (hr : fillTail name count index fields = .ok vs) :
    fitsAll fields vs = true := by
  induction fields generalizing index vs with
  | nil => cases hr; rfl
  | cons f fields ih =>
    obtain ⟨key, shape, default?⟩ := f
    obtain ⟨-, hdefault, hrest⟩ := soundAll_cons h
    unfold fillTail at hr
    cases default? with
    | none => cases hr
    | some v =>
      obtain ⟨ws, hws, hr⟩ := bind_eq_ok.mp hr
      cases hr
      simp only [fitsAll, hdefault v rfl, ih hrest hws, Bool.and_self]

/-- **The fields read so far** fit, each at its place. -/
def SoFar (fields : List (String × Shape × Option Value)) (read : List (Option Value)) : Prop :=
  ∀ (i : Nat) (f : String × Shape × Option Value) (v : Value),
    fields[i]? = some f → read[i]?.join = some v → fits f.2.1 v = true

theorem SoFar.none (fields : List (String × Shape × Option Value)) :
    SoFar fields (fields.map fun _ => none) := by
  intro i f v hf hv
  rw [List.getElem?_map, hf] at hv
  cases hv

theorem SoFar.set {fields : List (String × Shape × Option Value)} {read : List (Option Value)}
    (h : SoFar fields read) {i : Nat} {f : String × Shape × Option Value} {v : Value}
    (hf : fields[i]? = some f) (hv : fits f.2.1 v = true) :
    SoFar fields (read.set i (some v)) := by
  intro j g w hg hw
  by_cases hij : j = i
  · subst hij
    obtain rfl : f = g := Option.some.inj (hf.symm.trans hg)
    rw [List.getElem?_set_self'] at hw
    cases hr : read[j]? with
    | none => rw [hr] at hw; cases hw
    | some o => rw [hr] at hw; cases hw; exact hv
  · rw [List.getElem?_set_ne (Ne.symm hij)] at hw
    exact h j g w hg hw

theorem fits_of_fillFields {fields : List (String × Shape × Option Value)}
    {read : List (Option Value)} {vs : List Value} (h : soundAll fields = true)
    (hread : SoFar fields read) (hr : fillFields fields read = .ok vs) :
    fitsAll fields vs = true := by
  induction fields generalizing read vs with
  | nil => cases hr; rfl
  | cons f fields ih =>
    obtain ⟨key, shape, default?⟩ := f
    obtain ⟨-, hdefault, hrest⟩ := soundAll_cons h
    have htail : SoFar fields (read.drop 1) := by
      intro i f v hf hv
      refine hread (i + 1) f v hf ?_
      rw [← hv, List.getElem?_drop, Nat.add_comm]
    unfold fillFields at hr
    split at hr
    · cases hr
    · next v hv =>
      obtain ⟨ws, hws, hr⟩ := bind_eq_ok.mp hr
      cases hr
      -- the field was read, or there is a default
      have hfit : fits shape v = true := by
        cases hhead : read.head?.join with
        | some w =>
          rw [hhead] at hv
          cases hv
          exact hread 0 (key, shape, default?) _ rfl (by rw [← hhead, List.head?_eq_getElem?])
        | none =>
          rw [hhead] at hv
          exact hdefault v hv
      simp only [fitsAll, hfit, ih hrest htail hws, Bool.and_self]

/-! ### The readers -/

theorem fitStep_lt {s : List Char} {w : Width} {x : Step s Number} {y : Step s Nat}
    (h : fitStep w x = .ok y) : y.val < w.bound := by
  unfold fitStep at h
  split at h
  · next m hm =>
    cases h
    unfold fitWord at hm
    split at hm
    · split at hm
      · next hlt => cases hm; exact hlt
      · cases hm
    · cases hm
    · cases hm
  · cases h

theorem readRange_lt {w : Width} {s : List Char} {x : Step s Nat} (h : readRange w s = .ok x) :
    x.val < w.bound := by
  unfold readRange at h
  split at h
  · cases h
  · split at h
    · obtain ⟨y, -, h⟩ := bind_eq_ok.mp h
      exact fitStep_lt h
    · split at h
      · obtain ⟨y, -, h⟩ := bind_eq_ok.mp h
        exact fitStep_lt h
      · cases h

/-- **What is to be shown of the readers** at a text: what they read is of the shape. -/
structure Reads (s : List Char) : Prop where
  value : ∀ (shape : Shape) (x : Step s Value), shape.sound = true →
    readShape shape s = .ok x → fits shape x.val = true
  list : ∀ (name : String) (count : Nat) (first : Bool) (index : Nat)
    (fields : List (String × Shape × Option Value)) (x : List Value × Rest s),
    soundAll fields = true → readFields name count first index fields s = .ok x →
      fitsAll fields x.1 = true
  object : ∀ (fields : List (String × Shape × Option Value)) (first : Bool)
    (read : List (Option Value)) (x : Step s (List Value)), soundAll fields = true →
      SoFar fields read → readRecord fields first read s = .ok x → fitsAll fields x.val = true

section Readers
variable {s : List Char}

theorem readShape_fits (ih : ∀ t : List Char, t.length < s.length → Reads t) {shape : Shape}
    {x : Step s Value} (h : shape.sound = true) (hr : readShape shape s = .ok x) :
    fits shape x.val = true := by
  cases shape with
  | word w =>
    rw [readShape] at hr
    obtain ⟨y, hy, hr⟩ := bind_eq_ok.mp hr
    cases hr
    simpa [fits] using readRange_lt hy
  | text =>
    rw [readShape] at hr
    obtain ⟨y, -, hr⟩ := bind_eq_ok.mp hr
    cases hr
    rfl
  | texts =>
    rw [readShape] at hr
    obtain ⟨y, -, hr⟩ := bind_eq_ok.mp hr
    cases hr
    rfl
  | record name fields =>
    have hfields : soundAll fields = true := h
    rw [readShape] at hr
    split at hr
    · cases hr
    · next c r hs =>
      have hlt : r.length < s.length := lt_of_skipBlanks hs
      simp only at hr
      split at hr
      · obtain ⟨⟨vs, r1⟩, hvs, hr⟩ := bind_eq_ok.mp hr
        obtain ⟨y, -, hr⟩ := bind_eq_ok.mp hr
        cases hr
        exact (ih r hlt).list _ _ _ _ fields _ hfields hvs
      · split at hr
        · obtain ⟨y, hy, hr⟩ := bind_eq_ok.mp hr
          cases hr
          exact (ih r hlt).object fields _ _ y hfields (SoFar.none fields) hy
        · cases hr

/-- Fields of an array: the first is read off a text that may be as long. -/
theorem readFields_fits (ih : ∀ t : List Char, t.length < s.length → Reads t)
    (hvalue : ∀ t : List Char, t.length ≤ s.length → ∀ (shape : Shape) (x : Step t Value),
      shape.sound = true → readShape shape t = .ok x → fits shape x.val = true)
    {name : String} {count : Nat} {first : Bool} {index : Nat}
    {fields : List (String × Shape × Option Value)} {x : List Value × Rest s}
    (h : soundAll fields = true) (hr : readFields name count first index fields s = .ok x) :
    fitsAll fields x.1 = true := by
  cases fields with
  | nil =>
    rw [readFields] at hr
    cases hr
    rfl
  | cons f fields =>
    obtain ⟨key, shape, default?⟩ := f
    obtain ⟨hshape, -, hrest⟩ := soundAll_cons h
    rw [readFields] at hr
    obtain ⟨next?, -, hr⟩ := bind_eq_ok.mp hr
    cases next? with
    | none =>
      simp only at hr
      split at hr
      · next vs hvs =>
        cases hr
        exact fits_of_fillTail h hvs
      · cases hr
    | some r =>
      obtain ⟨y, hy, hr⟩ := bind_eq_ok.mp hr
      obtain ⟨⟨vs, r2⟩, hvs, hr⟩ := bind_eq_ok.mp hr
      cases hr
      have hlt : y.rest.length < s.length := Nat.lt_of_lt_of_le y.shorter r.2
      have hhead := hvalue r.1 r.2 shape y hshape hy
      have htail := (ih y.rest hlt).list _ _ _ _ fields _ hrest hvs
      simp only [fitsAll, hhead, htail, Bool.and_self]

/-- Members of an object: each that is known joins those read so far. -/
theorem readRecord_fits (ih : ∀ t : List Char, t.length < s.length → Reads t)
    {fields : List (String × Shape × Option Value)} {first : Bool} {read : List (Option Value)}
    {x : Step s (List Value)} (h : soundAll fields = true) (hread : SoFar fields read)
    (hr : readRecord fields first read s = .ok x) : fitsAll fields x.val = true := by
  rw [readRecord] at hr
  obtain ⟨next?, -, hr⟩ := bind_eq_ok.mp hr
  cases next? with
  | none =>
    simp only at hr
    split at hr
    · cases hr
    · split at hr
      · next vs hvs =>
        cases hr
        exact fits_of_fillFields h hread hvs
      · cases hr
  | some k =>
    simp only at hr
    split at hr
    · -- a key that is not known
      obtain ⟨y, -, hr⟩ := bind_eq_ok.mp hr
      obtain ⟨z, -, hr⟩ := bind_eq_ok.mp hr
      obtain ⟨w, hw, hr⟩ := bind_eq_ok.mp hr
      cases hr
      have hlt : z.rest.length < s.length :=
        Nat.lt_trans z.shorter (Nat.lt_trans y.shorter k.shorter)
      exact (ih z.rest hlt).object fields _ _ w h hread hw
    · next i hi =>
      obtain ⟨hlen, -⟩ := List.findIdx?_eq_some_iff_getElem.mp hi
      obtain ⟨f, hf⟩ : ∃ f, fields[i]? = some f := ⟨_, List.getElem?_eq_getElem hlen⟩
      split at hr
      · obtain ⟨_, he, -⟩ := bind_eq_ok.mp hr
        cases he
      · obtain ⟨y, -, hr⟩ := bind_eq_ok.mp hr
        obtain ⟨z, hz, hr⟩ := bind_eq_ok.mp hr
        obtain ⟨w, hw, hr⟩ := bind_eq_ok.mp hr
        cases hr
        rw [hf] at hz
        have hlt : y.rest.length < s.length := Nat.lt_trans y.shorter k.shorter
        have hv : fits f.2.1 z.val = true :=
          (ih y.rest hlt).value f.2.1 z (sound_of_getElem? h hf) hz
        exact (ih z.rest (Nat.lt_trans z.shorter hlt)).object fields _ _ w h (hread.set hf hv) hw

end Readers

/-- **The readers read values of the shape**, by induction on the length of the text. -/
theorem reads (s : List Char) : Reads s := by
  induction hn : s.length using Nat.strongRecOn generalizing s with
  | ind n ih =>
    have hless : ∀ t : List Char, t.length < s.length → Reads t :=
      fun t ht => ih t.length (hn ▸ ht) t rfl
    have hvalue : ∀ t : List Char, t.length ≤ s.length → ∀ (shape : Shape) (x : Step t Value),
        shape.sound = true → readShape shape t = .ok x → fits shape x.val = true :=
      fun t ht shape x h hr =>
        readShape_fits (fun u hu => hless u (Nat.lt_of_lt_of_le hu ht)) h hr
    exact ⟨fun shape x h hr => hvalue s (Nat.le_refl _) shape x h hr,
      fun name count first index fields x h hr => readFields_fits hless hvalue h hr,
      fun fields first read x h hread hr => readRecord_fits hless h hread hr⟩

/-- **A text that is read gives a value of the shape.** -/
theorem fits_of_decode {shape : Shape} (h : shape.sound = true) {text : String} {v : Value}
    (hr : decode shape text = .ok v) : fits shape v = true := by
  unfold decode at hr
  obtain ⟨x, hx, hr⟩ := bind_eq_ok.mp hr
  obtain ⟨_, -, hr⟩ := bind_eq_ok.mp hr
  cases hr
  exact (reads text.toList).value shape x h hx

end PaneRelay.Json
