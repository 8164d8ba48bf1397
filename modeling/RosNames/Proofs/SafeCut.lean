import RosNames.Proofs.Utf8RoundTrip
import RosNames.Proofs.Verdict
import RosNames.Proofs.WordArithmetic

/-!
# The index as a place to cut

A reported index lies inside the name, and in a name that is a text it lies between two characters.
Inside the bytes of a character neither of two neighbours is ASCII. At a reported index one is: the
slash at the end or in front, or an allowed byte before the first one that is not, unless the index
is 0 and nothing stands before it.
-/

namespace RosNames

/-- There is nothing in front of the position, or an ASCII byte in front of it or at it. -/
def TouchesAscii (name : Bytes) (i : Nat) : Prop :=
  i = 0 ∨ (∃ j b, i = j + 1 ∧ name[j]? = some b ∧ b.toNat < 0x80) ∨
    ∃ b, name[i]? = some b ∧ b.toNat < 0x80

namespace Utf8

theorem IsCharacter.not_ascii {bytes : Bytes} {v : Nat} (h : IsCharacter bytes v)
    (hlength : 1 < bytes.length) : ∀ b ∈ bytes, 0x80 ≤ b.toNat := by
  cases h with
  | one ha => exact absurd hlength (Nat.lt_irrefl 1)
  | two ha _ hb => simpa using ⟨Nat.le_trans (by decide) ha, hb.1⟩
  | three ha _ hb _ _ hc => simpa using ⟨Nat.le_trans (by decide) ha, hb.1, hc.1⟩
  | four ha _ hb _ _ hc hd => simpa using ⟨Nat.le_trans (by decide) ha, hb.1, hc.1, hd.1⟩

def IsBoundary (cs : List Char) (i : Nat) : Prop :=
  ∃ front back, cs = front ++ back ∧ (front.flatMap String.utf8EncodeChar).length = i

theorem touchesAscii_append_right {front name : Bytes} {i : Nat}
    (h : TouchesAscii (front ++ name) (front.length + i)) : TouchesAscii name i := by
  cases i with
  | zero => exact Or.inl rfl
  | succ i =>
    rcases h with h | ⟨j, b, hj, hb, hascii⟩ | ⟨b, hb, hascii⟩
    · exact absurd h (Nat.succ_ne_zero _)
    · obtain rfl : j = front.length + i := by omega
      rw [List.getElem?_append_right (Nat.le_add_right _ _), Nat.add_sub_cancel_left] at hb
      exact Or.inr (Or.inl ⟨i, b, rfl, hb, hascii⟩)
    · rw [List.getElem?_append_right (Nat.le_add_right _ _), Nat.add_sub_cancel_left] at hb
      exact Or.inr (Or.inr ⟨b, hb, hascii⟩)

theorem IsCharacter.not_touchesAscii {bytes rest : Bytes} {v i : Nat} (h : IsCharacter bytes v)
    (hpos : i ≠ 0) (hlt : i < bytes.length) : ¬ TouchesAscii (bytes ++ rest) i := by
  have hbytes := h.not_ascii (by omega)
  have hnot {j : Nat} {b : UInt8} (hj : j < bytes.length) (hb : (bytes ++ rest)[j]? = some b) :
      0x80 ≤ b.toNat := by
    rw [List.getElem?_append_left hj] at hb
    exact hbytes b (List.mem_of_getElem? hb)
  rintro (h | ⟨j, b, rfl, hb, hascii⟩ | ⟨b, hb, hascii⟩)
  · exact hpos h
  · exact absurd hascii (Nat.not_lt.mpr (hnot (Nat.lt_of_succ_lt hlt) hb))
  · exact absurd hascii (Nat.not_lt.mpr (hnot hlt hb))

theorem isBoundary_of_touchesAscii {cs : List Char} {i : Nat}
    (hle : i ≤ (cs.flatMap String.utf8EncodeChar).length)
    (h : TouchesAscii (cs.flatMap String.utf8EncodeChar) i) : IsBoundary cs i := by
  induction cs generalizing i with
  | nil => exact ⟨[], [], rfl, (Nat.le_zero.mp hle).symm⟩
  | cons c cs ih =>
    rw [List.flatMap_cons] at h hle
    by_cases hzero : i = 0
    · exact ⟨[], c :: cs, rfl, hzero.symm⟩
    · by_cases hlt : i < (String.utf8EncodeChar c).length
      · exact absurd h ((isCharacter_utf8EncodeChar c).not_touchesAscii hzero hlt)
      · -- the position is past the first character
        obtain ⟨j, rfl⟩ := Nat.exists_eq_add_of_le (Nat.not_lt.mp hlt)
        rw [List.length_append] at hle
        obtain ⟨front, back, rfl, hlength⟩ :=
          ih (Nat.le_of_add_le_add_left hle) (touchesAscii_append_right h)
        exact ⟨c :: front, back, rfl, by rw [List.flatMap_cons, List.length_append, hlength]⟩

theorem exists_cut_of_touchesAscii {name : Bytes} {text : String} {i : Nat}
    (htext : decode? name = some text) (hle : i ≤ name.length) (h : TouchesAscii name i) :
    ∃ front back, text = front ++ back ∧ decode? (name.take i) = some front ∧
      decode? (name.drop i) = some back := by
  obtain rfl := (decode?_eq_some_iff name text).mp htext
  obtain ⟨front, back, hsplit, hlength⟩ := isBoundary_of_touchesAscii hle h
  have hbytes : encode text =
      front.flatMap String.utf8EncodeChar ++ back.flatMap String.utf8EncodeChar := by
    rw [encode, hsplit, List.flatMap_append]
  refine ⟨String.ofList front, String.ofList back, ?_, ?_, ?_⟩
  · rw [← String.ofList_append, ← hsplit, String.ofList_toList]
  · rw [decode?_eq_some_iff, hbytes, List.take_left' hlength, encode, String.toList_ofList]
  · rw [decode?_eq_some_iff, hbytes, List.drop_left' hlength, encode, String.toList_ofList]

end Utf8

/-- The index is inside the name, and in a text both sides of it are texts. -/
structure IsSafeCut (name : Bytes) (i : Nat) : Prop where
  lt_length : name ≠ [] → i < name.length
  eq_zero : name = [] → i = 0
  splits : ∀ text, Utf8.decode? name = some text → ∃ front back, text = front ++ back ∧
    Utf8.decode? (name.take i) = some front ∧ Utf8.decode? (name.drop i) = some back

namespace Grammar

variable {g : Grammar} {name : Bytes} {f : Finding}

theorem toNat_lt_of_allows {b : UInt8} (h : g.allows b) : b.toNat < 0x80 := by
  rw [allows, Bool.or_eq_true, Bool.and_eq_true, Byte.isSeparator_iff] at h
  rcases h with h | ⟨-, rfl⟩
  · exact Byte.toNat_lt_of_isTokenByte h
  · decide

theorem index_lt_of_breaks (hne : name ≠ []) {r : Rule} (h : g.Breaks name r f) :
    f.index < name.length := by
  have hpos : 0 < name.length := List.length_pos_iff.mpr hne
  cases r with
  | nonempty => exact absurd h.1 hne
  | absolute => rwa [h.2]
  | noTrailingSlash =>
    rw [h.2]
    exact Nat.sub_lt hpos Nat.one_pos
  | allowedBytes =>
    obtain ⟨-, ⟨b, hb, -⟩, -⟩ := h
    exact (List.getElem?_eq_some_iff.mp hb).1
  | tokenStarts =>
    obtain ⟨i, hi, hindex, -⟩ := h
    rw [hindex]
    exact succ_lt_length_of_faultAfter? hi
  | noLeadingDigit => rwa [h.2]
  | withinLimit =>
    rw [h.2]
    exact Nat.lt_of_le_of_lt (Nat.sub_le g.maxLength 1) h.1

/-- All that a flaw rule asks about the bytes around the index. -/
theorem touchesAscii_of_breaks {r : Rule} (hr : r ≠ .withinLimit) (h : g.Breaks name r f) :
    TouchesAscii name f.index := by
  cases r with
  | nonempty => exact Or.inl (by rw [h.2])
  | absolute => exact Or.inl (by rw [h.2])
  | noTrailingSlash =>
    obtain ⟨hlast, rfl⟩ := h
    rw [List.getLast?_eq_getElem?] at hlast
    exact Or.inr (Or.inr ⟨Byte.separator, hlast, by decide⟩)
  | allowedBytes =>
    obtain ⟨-, ⟨c, hc, -⟩, hleast⟩ := h
    cases hindex : f.index with
    | zero => exact Or.inl rfl
    | succ j =>
      rw [hindex] at hc hleast
      have hlt : j < name.length := Nat.lt_of_succ_lt (List.getElem?_eq_some_iff.mp hc).1
      have hj : name[j]? = some name[j] := List.getElem?_eq_getElem hlt
      have hallows := hleast j (Nat.lt_succ_self j) name[j] hj
      exact Or.inr (Or.inl ⟨j, name[j], rfl, hj, toNat_lt_of_allows hallows⟩)
  | tokenStarts =>
    obtain ⟨i, hi, hindex, -⟩ := h
    have hslash := ((faultAfter?_eq_some_iff name i f.fault).mp hi).1
    exact Or.inr (Or.inl ⟨i, Byte.separator, hindex, hslash, by decide⟩)
  | noLeadingDigit => exact Or.inl (by rw [h.2])
  | withinLimit => exact absurd rfl hr

theorem touchesAscii_of_allowedBytes {i : Nat} (hkeeps : g.Keeps name .allowedBytes)
    (hlt : i < name.length) : TouchesAscii name i := by
  have hi : name[i]? = some name[i] := List.getElem?_eq_getElem hlt
  have hallows := hkeeps name[i] (List.mem_of_getElem? hi)
  exact Or.inr (Or.inr ⟨name[i], hi, toNat_lt_of_allows hallows⟩)

theorem keeps_allowedBytes_of_long (h : g.flaw? name = none) (hlong : g.maxLength < name.length) :
    g.Keeps name .allowedBytes := by
  rcases (g.flaw?_eq_none_iff name).mp h with hroot | hkeeps
  · exact absurd hlong (Nat.not_lt.mpr (g.keeps_withinLimit_of_isRoot name hroot))
  · exact hkeeps _ g.shape.allowedBytes_mem_flawRules

theorem touchesAscii_of_check (h : g.check name = some f) : TouchesAscii name f.index := by
  rcases (g.check_eq_some_iff name f).mp h with hflaw | ⟨hnone, hlong, rfl⟩
  · exact touchesAscii_of_breaks (g.rule_ne_withinLimit_of_flaw? name hflaw)
      (g.breaks_of_check name h)
  · have hlt : g.maxLength - 1 < name.length := Nat.lt_of_le_of_lt (Nat.sub_le _ 1) hlong
    exact touchesAscii_of_allowedBytes (g.keeps_allowedBytes_of_long hnone hlong) hlt

theorem index_eq_zero_of_check_nil (h : g.check [] = some f) : f.index = 0 := by
  obtain rfl := Option.some.inj (g.check_nil.symm.trans h)
  rfl

theorem index_le_of_check (h : g.check name = some f) : f.index ≤ name.length := by
  by_cases hne : name = []
  · subst hne
    exact Nat.le_of_eq (index_eq_zero_of_check_nil h)
  · exact Nat.le_of_lt (index_lt_of_breaks hne (g.breaks_of_check name h))

theorem isSafeCut_of_check (h : g.check name = some f) : IsSafeCut name f.index where
  lt_length hne := index_lt_of_breaks hne (g.breaks_of_check name h)
  eq_zero := by
    rintro rfl
    exact index_eq_zero_of_check_nil h
  splits text htext :=
    Utf8.exists_cut_of_touchesAscii htext (index_le_of_check h) (touchesAscii_of_check h)

end Grammar

theorem Kind.isSafeCut_of_validate (k : Kind) {name : Bytes} {i : Nat}
    (h : (k.validate name).index = some i) : IsSafeCut name i := by
  have hv : k.validate name = ⟨(k.validate name).outcome, some i⟩ := by rw [← h]
  obtain ⟨f, hf, -, rfl⟩ := (k.validate_eq_some_iff_check name _ i).mp hv
  exact Grammar.isSafeCut_of_check hf

/-- Names can be cut at the reported index, whatever the grammar, and the rules find it without
leaving the numbers of a machine word, if only a word holds the length of the name. -/
theorem index_is_safe_cut :
    (∀ (k : Kind) name i, (k.validate name).index = some i → IsSafeCut name i) ∧
    (∀ (g : Grammar) name f, g.check name = some f → IsSafeCut name f.index) ∧
    ∀ (g : Grammar) name top, name.length ≤ top →
      (∀ r, g.breachInWords? name top r = some (g.breach? name r)) ∧
        g.checkInWords? name top = some (g.check name) :=
  ⟨fun k _ _ h => k.isSafeCut_of_validate h, fun _ _ _ h => Grammar.isSafeCut_of_check h,
    fun g _ _ h => ⟨g.breachInWords?_eq h, g.checkInWords?_eq h⟩⟩

/-- Behind the character of two bytes, `/é/` can be cut. -/
theorem cut_before_a_trailing_slash :
    let name : Bytes := [0x2f, 0xc3, 0xa9, 0x2f]
    (Kind.topicName.validate name).index = some 3 ∧ IsSafeCut name 3 ∧
    (∃ front back, "/é/" = front ++ back ∧ Utf8.decode? (name.take 3) = some front ∧
      Utf8.decode? (name.drop 3) = some back) ∧
    IsSafeCut name 1 ∧
    (topicGrammar.checkInWords? name 4 = some (some ⟨.trailingSlash, 3⟩)) := by
  intro name
  obtain ⟨hkinds, hgrammars, hwords⟩ := index_is_safe_cut
  have hindex : (Kind.topicName.validate name).index = some 3 := by decide
  have hname : Utf8.decode? name = some "/é/" := (Utf8.decode?_eq_some_iff _ _).mpr (by decide)
  have hcut := hkinds .topicName name 3 hindex
  -- without the rule on the end, the first byte of the character is to blame
  let g : Grammar := { nodeGrammar with allowsSeparator := true }
  exact ⟨hindex, hcut, hcut.splits "/é/" hname,
    hgrammars g name ⟨.unallowedByte, 1⟩ (by decide),
    (hwords topicGrammar name 4 (by decide)).2⟩

end RosNames
