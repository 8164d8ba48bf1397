import RosNames.Text.Utf8

/-!
# UTF-8 in both directions

`IsCharacter` says which bytes are one character and which code point they stand for, with the
range of each byte written out. What a character is encoded as is of this kind, the reader takes
bytes of this kind for that character, and wherever it finds nothing ill-formed the bytes begin with
some of this kind. So bytes are read as a text exactly if they are its encoding.
-/

namespace RosNames.Utf8

def IsContinuation (b : UInt8) : Prop := 0x80 ≤ b.toNat ∧ b.toNat ≤ 0xbf

/-- The bytes of one character and its code point. -/
inductive IsCharacter : Bytes → Nat → Prop
  | one {a : UInt8} : a.toNat < 0x80 → IsCharacter [a] a.toNat
  | two {a b : UInt8} : 0xc2 ≤ a.toNat → a.toNat ≤ 0xdf → IsContinuation b →
      IsCharacter [a, b] ((a.toNat - 0xc0) * 0x40 + (b.toNat - 0x80))
  | three {a b c : UInt8} : 0xe0 ≤ a.toNat → a.toNat ≤ 0xef → IsContinuation b →
      (a.toNat = 0xe0 → 0xa0 ≤ b.toNat) → (a.toNat = 0xed → b.toNat ≤ 0x9f) →
      IsContinuation c → IsCharacter [a, b, c]
        (((a.toNat - 0xe0) * 0x40 + (b.toNat - 0x80)) * 0x40 + (c.toNat - 0x80))
  | four {a b c d : UInt8} : 0xf0 ≤ a.toNat → a.toNat ≤ 0xf4 → IsContinuation b →
      (a.toNat = 0xf0 → 0x90 ≤ b.toNat) → (a.toNat = 0xf4 → b.toNat ≤ 0x8f) →
      IsContinuation c → IsContinuation d → IsCharacter [a, b, c, d]
        ((((a.toNat - 0xf0) * 0x40 + (b.toNat - 0x80)) * 0x40 + (c.toNat - 0x80)) * 0x40 +
          (d.toNat - 0x80))

theorem toNat_val_ofNat {n : Nat} (h : n < 0xd800 ∨ 0xdfff < n ∧ n < 0x110000) :
    (Char.ofNat n).val.toNat = n := by
  have hvalid : n.isValidChar := h
  rw [Char.ofNat, dif_pos hvalid]
  rfl

theorem IsCharacter.ne_nil {bytes : Bytes} {v : Nat} (h : IsCharacter bytes v) : bytes ≠ [] := by
  cases h <;> exact List.cons_ne_nil _ _

theorem IsCharacter.utf8EncodeChar_ofNat {bytes : Bytes} {v : Nat} (h : IsCharacter bytes v) :
    String.utf8EncodeChar (Char.ofNat v) = bytes := by
  cases h with
  | one ha =>
    have hv := toNat_val_ofNat (Or.inl (Nat.lt_trans ha (by decide)))
    simp only [String.utf8EncodeChar, hv]
    rw [if_pos (by omega), UInt8.ofNat_toNat]
  | @two a b ha ha' hb =>
    unfold IsContinuation at hb
    have hv := toNat_val_ofNat (n := (a.toNat - 0xc0) * 0x40 + (b.toNat - 0x80)) (by omega)
    simp only [String.utf8EncodeChar, hv]
    rw [if_neg (by omega), if_pos (by omega)]
    simp only [List.cons.injEq, ← UInt8.toNat_inj, UInt8.toNat_ofNat', and_true]
    omega
  | @three a b c ha ha' hb hlow hhigh hc =>
    unfold IsContinuation at hb hc
    have hv := toNat_val_ofNat
      (n := ((a.toNat - 0xe0) * 0x40 + (b.toNat - 0x80)) * 0x40 + (c.toNat - 0x80)) (by omega)
    simp only [String.utf8EncodeChar, hv]
    rw [if_neg (by omega), if_neg (by omega), if_pos (by omega)]
    simp only [List.cons.injEq, ← UInt8.toNat_inj, UInt8.toNat_ofNat', and_true]
    omega
  | @four a b c d ha ha' hb hlow hhigh hc hd =>
    unfold IsContinuation at hb hc hd
    have hv := toNat_val_ofNat (n := (((a.toNat - 0xf0) * 0x40 + (b.toNat - 0x80)) * 0x40 +
      (c.toNat - 0x80)) * 0x40 + (d.toNat - 0x80)) (by omega)
    simp only [String.utf8EncodeChar, hv]
    rw [if_neg (by omega), if_neg (by omega), if_neg (by omega)]
    simp only [List.cons.injEq, ← UInt8.toNat_inj, UInt8.toNat_ofNat', and_true]
    omega

theorem isCharacter_utf8EncodeChar (ch : Char) :
    IsCharacter (String.utf8EncodeChar ch) ch.toNat := by
  have hvalid : ch.toNat < 0xd800 ∨ 0xdfff < ch.toNat ∧ ch.toNat < 0x110000 := ch.valid
  generalize hv : ch.toNat = v at hvalid
  simp only [String.utf8EncodeChar, Char.toNat_val, hv]
  -- in each range the bytes are named, and their numbers give the code point back
  by_cases h1 : v ≤ 0x7f
  · generalize ha : UInt8.ofNat v = a
    rw [← UInt8.toNat_inj, UInt8.toNat_ofNat'] at ha
    have hvalue : a.toNat = v := by omega
    rw [if_pos h1, ← hvalue]
    exact .one (by omega)
  by_cases h2 : v ≤ 0x7ff
  · generalize ha : UInt8.ofNat (v / 64 % 32 + 192) = a
    generalize hb : UInt8.ofNat (v % 64 + 128) = b
    rw [← UInt8.toNat_inj, UInt8.toNat_ofNat'] at ha hb
    have hvalue : (a.toNat - 0xc0) * 0x40 + (b.toNat - 0x80) = v := by omega
    rw [if_neg h1, if_pos h2, ← hvalue]
    exact .two (by omega) (by omega) (by unfold IsContinuation; omega)
  by_cases h3 : v ≤ 0xffff
  · generalize ha : UInt8.ofNat (v / 4096 % 16 + 224) = a
    generalize hb : UInt8.ofNat (v / 64 % 64 + 128) = b
    generalize hc : UInt8.ofNat (v % 64 + 128) = c
    rw [← UInt8.toNat_inj, UInt8.toNat_ofNat'] at ha hb hc
    have hvalue : ((a.toNat - 0xe0) * 0x40 + (b.toNat - 0x80)) * 0x40 + (c.toNat - 0x80) = v := by
      omega
    rw [if_neg h1, if_neg h2, if_pos h3, ← hvalue]
    exact .three (by omega) (by omega) (by unfold IsContinuation; omega) (by omega) (by omega)
      (by unfold IsContinuation; omega)
  · generalize ha : UInt8.ofNat (v / 262144 % 8 + 240) = a
    generalize hb : UInt8.ofNat (v / 4096 % 64 + 128) = b
    generalize hc : UInt8.ofNat (v / 64 % 64 + 128) = c
    generalize hd : UInt8.ofNat (v % 64 + 128) = d
    rw [← UInt8.toNat_inj, UInt8.toNat_ofNat'] at ha hb hc hd
    have hvalue : (((a.toNat - 0xf0) * 0x40 + (b.toNat - 0x80)) * 0x40 + (c.toNat - 0x80)) * 0x40 +
        (d.toNat - 0x80) = v := by
      omega
    rw [if_neg h1, if_neg h2, if_neg h3, ← hvalue]
    exact .four (by omega) (by omega) (by unfold IsContinuation; omega) (by omega) (by omega)
      (by unfold IsContinuation; omega) (by unfold IsContinuation; omega)

namespace Begun

/-- Nothing is asked of the bytes to come but that they are continuations. -/
def owing (n value : Nat) : Begun := ⟨n, 0x80, 0xbf, value⟩

def ofThree (a : UInt8) : Begun where
  owed := 2
  low := if a.toNat = 0xe0 then 0xa0 else 0x80
  high := if a.toNat = 0xed then 0x9f else 0xbf
  value := a.toNat - 0xe0

def ofFour (a : UInt8) : Begun where
  owed := 3
  low := if a.toNat = 0xf0 then 0x90 else 0x80
  high := if a.toNat = 0xf4 then 0x8f else 0xbf
  value := a.toNat - 0xf0

def Takes (p : Begun) (b : UInt8) : Prop := p.low.toNat ≤ b.toNat ∧ b.toNat ≤ p.high.toNat

variable {a b : UInt8}

theorem ofByte?_two (h : 0xc2 ≤ a.toNat) (h' : a.toNat ≤ 0xdf) :
    ofByte? a = some (owing 1 (a.toNat - 0xc0)) := by
  simp only [ofByte?, UInt8.lt_iff_toNat_lt, UInt8.le_iff_toNat_le, UInt8.reduceToNat]
  rw [if_neg (by omega), if_pos h', owing]

theorem ofByte?_three (h : 0xe0 ≤ a.toNat) (h' : a.toNat ≤ 0xef) :
    ofByte? a = some (ofThree a) := by
  simp only [ofByte?, ofThree, UInt8.lt_iff_toNat_lt, UInt8.le_iff_toNat_le, ← UInt8.toNat_inj,
    UInt8.reduceToNat]
  rw [if_neg (by omega), if_neg (by omega)]
  grind

theorem ofByte?_four (h : 0xf0 ≤ a.toNat) (h' : a.toNat ≤ 0xf4) :
    ofByte? a = some (ofFour a) := by
  simp only [ofByte?, ofFour, UInt8.lt_iff_toNat_lt, UInt8.le_iff_toNat_le, ← UInt8.toNat_inj,
    UInt8.reduceToNat]
  rw [if_neg (by omega), if_neg (by omega), if_neg (by omega), if_neg (by omega),
    if_neg (by omega)]
  grind

theorem ofByte?_eq_none (h : a.toNat < 0xc2 ∨ 0xf4 < a.toNat) : ofByte? a = none := by
  simp only [ofByte?, UInt8.lt_iff_toNat_lt, UInt8.le_iff_toNat_le, ← UInt8.toNat_inj,
    UInt8.reduceToNat]
  grind

theorem takes_ofThree_iff : (ofThree a).Takes b ↔ IsContinuation b ∧
    (a.toNat = 0xe0 → 0xa0 ≤ b.toNat) ∧ (a.toNat = 0xed → b.toNat ≤ 0x9f) := by
  simp only [Takes, ofThree, IsContinuation]
  by_cases h : a.toNat = 0xe0
  · simp [h]
    omega
  · by_cases h' : a.toNat = 0xed
    · simp [h']
      omega
    · simp [h, h']

theorem takes_ofFour_iff : (ofFour a).Takes b ↔ IsContinuation b ∧
    (a.toNat = 0xf0 → 0x90 ≤ b.toNat) ∧ (a.toNat = 0xf4 → b.toNat ≤ 0x8f) := by
  simp only [Takes, ofFour, IsContinuation]
  by_cases h : a.toNat = 0xf0
  · simp [h]
    omega
  · by_cases h' : a.toNat = 0xf4
    · simp [h']
      omega
    · simp [h, h']

end Begun

open Begun

section Step

variable {ps : List (Option Char)} {p : Begun} {a b : UInt8}

theorem step_ascii (h : b.toNat < 0x80) :
    step ⟨ps, none⟩ b = ⟨some (Char.ofNat b.toNat) :: ps, none⟩ := by
  have hb : b < 0x80 := by simpa [UInt8.lt_iff_toNat_lt] using h
  simp only [step, fresh, if_pos hb]

theorem step_lead (hb : 0x80 ≤ b.toNat) (h : ofByte? b = some p) :
    step ⟨ps, none⟩ b = ⟨ps, some p⟩ := by
  have hb : ¬ b < 0x80 := by simpa [UInt8.lt_iff_toNat_lt] using hb
  simp only [step, fresh, if_neg hb, h]

theorem step_stray (hb : 0x80 ≤ b.toNat) (h : ofByte? b = none) :
    step ⟨ps, none⟩ b = ⟨none :: ps, none⟩ := by
  have hb : ¬ b < 0x80 := by simpa [UInt8.lt_iff_toNat_lt] using hb
  simp only [step, fresh, if_neg hb, h]

theorem step_of_takes (h : p.Takes b) : step ⟨ps, some p⟩ b =
    if p.owed ≤ 1 then ⟨some (Char.ofNat (p.value * 0x40 + (b.toNat - 0x80))) :: ps, none⟩
    else ⟨ps, some (owing (p.owed - 1) (p.value * 0x40 + (b.toNat - 0x80)))⟩ := by
  have h : p.low ≤ b ∧ b ≤ p.high := h
  simp [step, h, owing]

theorem step_of_not_takes (h : ¬ p.Takes b) :
    step ⟨ps, some p⟩ b = step ⟨none :: ps, none⟩ b := by
  have h : ¬ (p.low ≤ b ∧ b ≤ p.high) := h
  simp [step, h]

theorem step_owing_one (h : IsContinuation b) (v : Nat) : step ⟨ps, some (owing 1 v)⟩ b =
    ⟨some (Char.ofNat (v * 0x40 + (b.toNat - 0x80))) :: ps, none⟩ :=
  step_of_takes (p := owing 1 v) h

theorem step_owing_two (h : IsContinuation b) (v : Nat) : step ⟨ps, some (owing 2 v)⟩ b =
    ⟨ps, some (owing 1 (v * 0x40 + (b.toNat - 0x80)))⟩ :=
  step_of_takes (p := owing 2 v) h

theorem step_ofThree (h : (ofThree a).Takes b) : step ⟨ps, some (ofThree a)⟩ b =
    ⟨ps, some (owing 1 ((a.toNat - 0xe0) * 0x40 + (b.toNat - 0x80)))⟩ :=
  step_of_takes h

theorem step_ofFour (h : (ofFour a).Takes b) : step ⟨ps, some (ofFour a)⟩ b =
    ⟨ps, some (owing 2 ((a.toNat - 0xf0) * 0x40 + (b.toNat - 0x80)))⟩ :=
  step_of_takes h

end Step

theorem IsCharacter.foldl_step {bytes : Bytes} {v : Nat} (h : IsCharacter bytes v)
    (ps : List (Option Char)) :
    bytes.foldl step ⟨ps, none⟩ = ⟨some (Char.ofNat v) :: ps, none⟩ := by
  cases h with
  | one ha => exact step_ascii ha
  | two ha ha' hb =>
    rw [List.foldl_cons, step_lead (by omega) (ofByte?_two ha ha'), List.foldl_cons,
      step_owing_one hb, List.foldl_nil]
  | three ha ha' hb hlow hhigh hc =>
    have hb := takes_ofThree_iff.mpr ⟨hb, hlow, hhigh⟩
    rw [List.foldl_cons, step_lead (by omega) (ofByte?_three ha ha'), List.foldl_cons,
      step_ofThree hb, List.foldl_cons, step_owing_one hc, List.foldl_nil]
  | four ha ha' hb hlow hhigh hc hd =>
    have hb := takes_ofFour_iff.mpr ⟨hb, hlow, hhigh⟩
    rw [List.foldl_cons, step_lead (by omega) (ofByte?_four ha ha'), List.foldl_cons,
      step_ofFour hb, List.foldl_cons, step_owing_two hc, List.foldl_cons, step_owing_one hd,
      List.foldl_nil]

theorem exists_step_pieces (st : State) (b : UInt8) :
    ∃ new, (step st b).pieces = new ++ st.pieces := by
  have hfresh (ps : List (Option Char)) : ∃ new, (fresh ps b).pieces = new ++ ps := by
    unfold fresh
    split
    · exact ⟨[_], rfl⟩
    · split
      · exact ⟨[], rfl⟩
      · exact ⟨[none], rfl⟩
  obtain ⟨ps, begun⟩ := st
  cases begun with
  | none => exact hfresh ps
  | some p =>
    by_cases h : p.Takes b
    · rw [step_of_takes h]
      split
      · exact ⟨[_], rfl⟩
      · exact ⟨[], rfl⟩
    · obtain ⟨new, hnew⟩ := hfresh (none :: ps)
      exact ⟨new ++ [none], by rw [step_of_not_takes h, List.append_assoc]; exact hnew⟩

theorem exists_close_foldl_step (st : State) (bytes : Bytes) :
    ∃ more, (bytes.foldl step st).close = st.pieces.reverse ++ more := by
  induction bytes generalizing st with
  | nil =>
    cases h : st.begun with
    | none => exact ⟨[], by simp [State.close, h]⟩
    | some p => exact ⟨[none], by simp [State.close, h]⟩
  | cons b bytes ih =>
    obtain ⟨more, hmore⟩ := ih (step st b)
    obtain ⟨new, hnew⟩ := exists_step_pieces st b
    exact ⟨new.reverse ++ more, by rw [List.foldl_cons, hmore, hnew]; simp⟩

/-- From a state on, the bytes are read as these characters and nothing ill-formed. -/
def ReadsAs (st : State) (bytes : Bytes) (cs : List Char) : Prop :=
  (bytes.foldl step st).close = st.pieces.reverse ++ cs.map some

namespace ReadsAs

variable {ps : List (Option Char)} {p : Begun} {a : UInt8} {bytes : Bytes} {cs : List Char}

theorem nil_iff : ReadsAs ⟨ps, none⟩ [] cs ↔ cs = [] := by
  simp [ReadsAs, State.close]

theorem close_ne_of_ill_formed (bytes : Bytes) :
    (bytes.foldl step ⟨none :: ps, none⟩).close ≠ ps.reverse ++ cs.map some := by
  obtain ⟨more, hmore⟩ := exists_close_foldl_step ⟨none :: ps, none⟩ bytes
  rw [hmore]
  cases cs <;> simp

theorem exists_takes (h : ReadsAs ⟨ps, some p⟩ bytes cs) :
    ∃ b rest, bytes = b :: rest ∧ p.Takes b := by
  cases bytes with
  | nil => cases cs <;> simp [ReadsAs, State.close] at h
  | cons b rest =>
    refine ⟨b, rest, rfl, Classical.byContradiction fun hb => ?_⟩
    rw [ReadsAs, List.foldl_cons, step_of_not_takes hb] at h
    exact close_ne_of_ill_formed (b :: rest) h

theorem of_step {st : State} (h : ReadsAs st (a :: bytes) cs)
    (hstep : step st a = ⟨st.pieces, some p⟩) : ReadsAs ⟨st.pieces, some p⟩ bytes cs := by
  rwa [ReadsAs, List.foldl_cons, hstep] at h

theorem append_iff {v : Nat} {front : Bytes} (hfront : IsCharacter front v) :
    ReadsAs ⟨ps, none⟩ (front ++ bytes) cs ↔
      ∃ rest, cs = Char.ofNat v :: rest ∧ ReadsAs ⟨some (Char.ofNat v) :: ps, none⟩ bytes rest := by
  simp only [ReadsAs, List.foldl_append, hfront.foldl_step]
  constructor
  · intro h
    obtain ⟨more, hmore⟩ := exists_close_foldl_step ⟨some (Char.ofNat v) :: ps, none⟩ bytes
    rw [hmore] at h ⊢
    cases cs with
    | nil => simp at h
    | cons c rest =>
      obtain ⟨rfl, rfl⟩ : Char.ofNat v = c ∧ more = rest.map some := by simpa using h
      exact ⟨rest, rfl, rfl⟩
  · rintro ⟨rest, rfl, h⟩
    simpa using h

/-- Bytes that are read without anything ill-formed begin with a character. -/
theorem exists_isCharacter (h : ReadsAs ⟨ps, none⟩ (a :: bytes) cs) :
    ∃ front v rest, a :: bytes = front ++ rest ∧ IsCharacter front v := by
  by_cases h1 : a.toNat < 0x80
  · exact ⟨[a], _, bytes, rfl, .one h1⟩
  have h80 : 0x80 ≤ a.toNat := Nat.not_lt.mp h1
  by_cases h2 : 0xc2 ≤ a.toNat ∧ a.toNat ≤ 0xdf
  · obtain ⟨b, rest, rfl, hb⟩ := (h.of_step (step_lead h80 (ofByte?_two h2.1 h2.2))).exists_takes
    exact ⟨[a, b], _, rest, rfl, .two h2.1 h2.2 hb⟩
  by_cases h3 : 0xe0 ≤ a.toNat ∧ a.toNat ≤ 0xef
  · have hlead := h.of_step (step_lead h80 (ofByte?_three h3.1 h3.2))
    obtain ⟨b, rest, rfl, hb⟩ := hlead.exists_takes
    obtain ⟨c, rest, rfl, hc⟩ := (hlead.of_step (step_ofThree hb)).exists_takes
    obtain ⟨hb, hlow, hhigh⟩ := takes_ofThree_iff.mp hb
    exact ⟨[a, b, c], _, rest, rfl, .three h3.1 h3.2 hb hlow hhigh hc⟩
  by_cases h4 : 0xf0 ≤ a.toNat ∧ a.toNat ≤ 0xf4
  · have hlead := h.of_step (step_lead h80 (ofByte?_four h4.1 h4.2))
    obtain ⟨b, rest, rfl, hb⟩ := hlead.exists_takes
    have hnext := hlead.of_step (step_ofFour hb)
    obtain ⟨c, rest, rfl, hc⟩ := hnext.exists_takes
    obtain ⟨d, rest, rfl, hd⟩ := (hnext.of_step (step_owing_two hc _)).exists_takes
    obtain ⟨hb, hlow, hhigh⟩ := takes_ofFour_iff.mp hb
    exact ⟨[a, b, c, d], _, rest, rfl, .four h4.1 h4.2 hb hlow hhigh hc hd⟩
  · have hstray : step ⟨ps, none⟩ a = ⟨none :: ps, none⟩ :=
      step_stray h80 (ofByte?_eq_none (by omega))
    rw [ReadsAs, List.foldl_cons, hstray] at h
    exact absurd h (close_ne_of_ill_formed bytes)

end ReadsAs

theorem readsAs_iff (ps : List (Option Char)) (bytes : Bytes) (cs : List Char) :
    ReadsAs ⟨ps, none⟩ bytes cs ↔ bytes = cs.flatMap String.utf8EncodeChar := by
  constructor
  · intro h
    -- the length falls by at least the first byte of a character
    induction hn : bytes.length using Nat.strongRecOn generalizing ps bytes cs with
    | _ n ih =>
      cases bytes with
      | nil =>
        obtain rfl := ReadsAs.nil_iff.mp h
        rfl
      | cons a bytes =>
        obtain ⟨front, v, rest, hsplit, hfront⟩ := h.exists_isCharacter
        rw [hsplit] at h hn ⊢
        obtain ⟨more, rfl, hrest⟩ := (ReadsAs.append_iff hfront).mp h
        have hlt : rest.length < n := by
          have hpos := List.length_pos_iff.mpr hfront.ne_nil
          rw [← hn, List.length_append]
          omega
        rw [List.flatMap_cons, hfront.utf8EncodeChar_ofNat, ← ih _ hlt _ rest more hrest rfl]
  · rintro rfl
    induction cs generalizing ps with
    | nil => exact ReadsAs.nil_iff.mpr rfl
    | cons c cs ih =>
      have hc := isCharacter_utf8EncodeChar c
      rw [List.flatMap_cons, ReadsAs.append_iff hc, Char.ofNat_toNat]
      exact ⟨cs, rfl, ih _⟩

theorem pieces_eq_map_some_iff (bytes : Bytes) (cs : List Char) :
    pieces bytes = cs.map some ↔ bytes = cs.flatMap String.utf8EncodeChar := by
  rw [← readsAs_iff []]
  rfl

theorem eq_map_some_of_all_isSome {l : List (Option Char)} (h : l.all Option.isSome) :
    l = (l.filterMap id).map some := by
  induction l with
  | nil => rfl
  | cons o l ih =>
    cases o with
    | none => simp at h
    | some c => exact congrArg (some c :: ·) (ih (by simpa using h))

/-- Bytes are read as a text exactly if they are its encoding. -/
theorem decode?_eq_some_iff (bytes : Bytes) (text : String) :
    decode? bytes = some text ↔ encode text = bytes := by
  rw [encode, eq_comm (a := text.toList.flatMap _), ← pieces_eq_map_some_iff, decode?]
  constructor
  · intro h
    by_cases hsome : (pieces bytes).all Option.isSome
    · rw [if_pos hsome] at h
      obtain rfl := Option.some.inj h
      rw [String.toList_ofList]
      exact eq_map_some_of_all_isSome hsome
    · rw [if_neg hsome] at h
      cases h
  · intro h
    simp [h, List.filterMap_map]

theorem decode?_encode (text : String) : decode? (encode text) = some text :=
  (decode?_eq_some_iff _ _).mpr rfl

theorem encode_injective {a b : String} (h : encode a = encode b) : a = b :=
  Option.some.inj ((decode?_encode a).symm.trans (h ▸ decode?_encode b))

theorem IsCharacter.zero_notMem {bytes : Bytes} {v : Nat} (h : IsCharacter bytes v) (hv : v ≠ 0) :
    0 ∉ bytes := by
  have hne {b : UInt8} (hb : 0 < b.toNat) : 0 ≠ b := by
    rintro rfl
    exact absurd hb (by decide)
  have hcontinuation {b : UInt8} (hb : IsContinuation b) : 0 ≠ b :=
    hne (Nat.lt_of_lt_of_le (by decide) hb.1)
  cases h with
  | one ha => simpa using hne (Nat.pos_of_ne_zero hv)
  | two ha _ hb => simp [hne (Nat.lt_of_lt_of_le (by decide) ha), hcontinuation hb]
  | three ha _ hb _ _ hc =>
    simp [hne (Nat.lt_of_lt_of_le (by decide) ha), hcontinuation hb, hcontinuation hc]
  | four ha _ hb _ _ hc hd =>
    simp [hne (Nat.lt_of_lt_of_le (by decide) ha), hcontinuation hb, hcontinuation hc,
      hcontinuation hd]

theorem zero_notMem_encode {text : String} (h : '\x00' ∉ text.toList) : 0 ∉ encode text := by
  intro hmem
  obtain ⟨c, hc, hzero⟩ := List.mem_flatMap.mp hmem
  refine (isCharacter_utf8EncodeChar c).zero_notMem (fun hv => h ?_) hzero
  have hnul : c = '\x00' := Char.toNat_inj.mp hv
  rwa [← hnul]

end RosNames.Utf8
