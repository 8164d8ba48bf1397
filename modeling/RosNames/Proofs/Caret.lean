import RosNames.Proofs.TextBlock

/-!
# Where the caret stands

A caret is set behind as many spaces as bytes come before the one to blame, and it is read as
pointing at a character of the line above. Every rule but the one on the slash at the end blames a
byte with nothing but allowed bytes in front of it, and each of those is a character by itself, so
there the caret stands below the character to blame. The slash at the end is blamed before the other
bytes are looked at: in front of it every character that takes more than one byte moves the caret to
the right.
-/

namespace RosNames

namespace Utf8

def IsAscii (text : String) : Prop := ∀ c ∈ text.toList, c.toNat < 0x80

instance (text : String) : Decidable (IsAscii text) :=
  decidable_of_iff (text.toList.all fun c => c.toNat < 0x80) (by simp [IsAscii])

/-- The number of characters in front of the one that byte `i` belongs to. -/
def charsBefore : List Char → Nat → Nat
  | [], _ => 0
  | c :: cs, i => if i < c.utf8Size then 0 else charsBefore cs (i - c.utf8Size) + 1

theorem utf8Size_eq_one_iff (c : Char) : c.utf8Size = 1 ↔ c.toNat < 0x80 := by
  rw [Char.utf8Size_eq_one_iff, UInt32.le_iff_toNat_le]
  exact Nat.lt_succ_iff.symm

theorem length_le_length_encoded (cs : List Char) :
    cs.length ≤ (cs.flatMap String.utf8EncodeChar).length := by
  induction cs with
  | nil => exact Nat.zero_le 0
  | cons c cs ih =>
    have hpos := c.utf8Size_pos
    rw [List.flatMap_cons, List.length_append, String.length_utf8EncodeChar, List.length_cons]
    omega

theorem length_encoded_eq_iff (cs : List Char) :
    (cs.flatMap String.utf8EncodeChar).length = cs.length ↔ ∀ c ∈ cs, c.toNat < 0x80 := by
  induction cs with
  | nil => simp
  | cons c cs ih =>
    have hpos := c.utf8Size_pos
    have hle := length_le_length_encoded cs
    rw [List.flatMap_cons, List.length_append, String.length_utf8EncodeChar, List.length_cons,
      List.forall_mem_cons, ← ih, ← utf8Size_eq_one_iff]
    omega

theorem charsBefore_append (front back : List Char) (c : Char) :
    charsBefore (front ++ c :: back) (front.flatMap String.utf8EncodeChar).length =
      front.length := by
  induction front with
  | nil => exact if_pos c.utf8Size_pos
  | cons d front ih =>
    rw [List.cons_append, charsBefore, List.flatMap_cons, List.length_append,
      String.length_utf8EncodeChar, if_neg (Nat.not_lt.mpr (Nat.le_add_right _ _)),
      Nat.add_sub_cancel_left, ih, List.length_cons]

theorem toNat_lt_of_forall_mem_encoded {c : Char}
    (h : ∀ b ∈ String.utf8EncodeChar c, b.toNat < 0x80) : c.toNat < 0x80 := by
  have hcharacter := isCharacter_utf8EncodeChar c
  rw [← utf8Size_eq_one_iff, ← String.length_utf8EncodeChar]
  apply Nat.le_antisymm
  · apply Nat.le_of_not_lt
    intro hlt
    obtain ⟨b, hb⟩ := List.exists_mem_of_ne_nil _ hcharacter.ne_nil
    exact absurd (h b hb) (Nat.not_lt.mpr (hcharacter.not_ascii hlt b hb))
  · exact List.length_pos_iff.mpr hcharacter.ne_nil

theorem exists_cut_of_isSafeCut {text : String} {i : Nat} (h : IsSafeCut (encode text) i)
    (hne : text ≠ "") : ∃ front c back, text.toList = front ++ c :: back ∧
      front.flatMap String.utf8EncodeChar = (encode text).take i ∧
      (front.flatMap String.utf8EncodeChar).length = i := by
  have hlt : i < (encode text).length := h.lt_length (mt (encode_eq_nil_iff text).mp hne)
  obtain ⟨front, back, hsplit, hfront, hback⟩ := h.splits text (decode?_encode text)
  replace hfront : (encode text).take i = encode front :=
    ((decode?_eq_some_iff _ front).mp hfront).symm
  replace hback : (encode text).drop i = encode back :=
    ((decode?_eq_some_iff _ back).mp hback).symm
  have hne : back.toList ≠ [] := by
    intro hnil
    have hempty : (encode text).drop i = [] := by rw [hback, encode, hnil, List.flatMap_nil]
    exact absurd hlt (Nat.not_lt.mpr (List.drop_eq_nil_iff.mp hempty))
  obtain ⟨c, rest, hchars⟩ := List.exists_cons_of_ne_nil hne
  refine ⟨front.toList, c, rest, ?_, hfront.symm, ?_⟩
  · rw [hsplit, String.toList_append, hchars]
  · calc (encode front).length
        = ((encode text).take i).length := by rw [hfront]
      _ = i := List.length_take_of_le (Nat.le_of_lt hlt)

end Utf8

def Outcome.isTrailingSlash {s : Shape} : Outcome s → Bool
  | trailingSlash => true
  | _ => false

theorem Outcome.fault_of_isTrailingSlash {s : Shape} {fault : Fault}
    (h : (ofFault s fault).isTrailingSlash) : fault = .trailingSlash := by
  revert h
  cases s <;> cases fault <;> decide

namespace Grammar

variable {g : Grammar} {name : Bytes} {f : Finding}

/-- All rules but one blame a byte behind allowed bytes only. -/
theorem allows_of_lt_index (h : g.check name = some f)
    (hf : (Outcome.ofFault g.shape f.fault).isTrailingSlash = false) :
    ∀ j < f.index, ∀ b, name[j]? = some b → g.allows b := by
  have hkept (hkeeps : g.Keeps name .allowedBytes) : ∀ j < f.index, ∀ b, name[j]? = some b →
      g.allows b := fun j _ b hb => hkeeps b (List.mem_of_getElem? hb)
  have hfirst {fault : Fault} (hzero : f = ⟨fault, 0⟩) : ∀ j < f.index, ∀ b, name[j]? = some b →
      g.allows b := by
    intro j hj
    rw [hzero] at hj
    exact absurd hj (Nat.not_lt_zero j)
  rcases (g.check_eq_some_iff name f).mp h with hflaw | ⟨hnone, hlong, -⟩
  · have hbroken := ((g.flaw?_eq_some_iff name f).mp hflaw).2
    cases hs : g.shape with
    | path =>
      rw [hs] at hbroken hf
      rcases hbroken with h | ⟨-, h | ⟨-, h | ⟨-, h | ⟨hkeeps, -⟩⟩⟩⟩
      · exact hfirst h.2
      · exact hfirst h.2
      · rw [h.2] at hf
        cases hf
      · exact h.2.2
      · exact hkept hkeeps
    | token =>
      rw [hs] at hbroken
      rcases hbroken with h | ⟨-, h | ⟨hkeeps, -⟩⟩
      · exact hfirst h.2
      · exact h.2.2
      · exact hkept hkeeps
  · exact hkept (g.keeps_allowedBytes_of_long hnone hlong)

theorem index_of_isTrailingSlash (h : g.check name = some f)
    (hf : (Outcome.ofFault g.shape f.fault).isTrailingSlash) : f.index = name.length - 1 := by
  have hbreaks := g.breaks_of_check name h
  rw [Outcome.fault_of_isTrailingSlash hf] at hbreaks
  exact congrArg Finding.index hbreaks.2

end Grammar

namespace Cli

variable {k : Kind} {name : String} {o : Outcome k.shape} {i : Nat}

theorem forall_ascii_front (h : k.validate (Utf8.encode name) = ⟨o, some i⟩)
    (ho : o.isTrailingSlash = false) {front : List Char}
    (hfront : front.flatMap String.utf8EncodeChar = (Utf8.encode name).take i) :
    ∀ c ∈ front, c.toNat < 0x80 := by
  obtain ⟨f, hcheck, rfl, rfl⟩ := (k.validate_eq_some_iff_check _ o i).mp h
  intro c hc
  apply Utf8.toNat_lt_of_forall_mem_encoded
  intro b hb
  have hmem : b ∈ (Utf8.encode name).take f.index := by
    rw [← hfront]
    exact List.mem_flatMap_of_mem hc hb
  obtain ⟨j, hlt, hj⟩ := List.mem_take_iff_getElem.mp hmem
  have hbound : j < f.index := Nat.lt_of_lt_of_le hlt (Nat.min_le_left _ _)
  have hb : (Utf8.encode name)[j]? = some b := List.getElem?_eq_some_iff.mpr ⟨_, hj⟩
  exact Grammar.toNat_lt_of_allows (Grammar.allows_of_lt_index hcheck ho j hbound b hb)

theorem eq_length_iff_isAscii {front back : List Char} {c : Char}
    (hchars : name.toList = front ++ c :: back)
    (hlength : (front.flatMap String.utf8EncodeChar).length = i)
    (hlast : i = (Utf8.encode name).length - 1) : i = front.length ↔ Utf8.IsAscii name := by
  have hbytes : (Utf8.encode name).length =
      i + (c.utf8Size + (back.flatMap String.utf8EncodeChar).length) := by
    rw [Utf8.encode, hchars, List.flatMap_append, List.length_append, List.flatMap_cons,
      List.length_append, String.length_utf8EncodeChar, hlength]
  have hcount : name.toList.length = front.length + (back.length + 1) := by
    rw [hchars, List.length_append, List.length_cons]
  have hascii : (Utf8.encode name).length = name.toList.length ↔ Utf8.IsAscii name :=
    Utf8.length_encoded_eq_iff name.toList
  have hpos := c.utf8Size_pos
  have hback := Utf8.length_le_length_encoded back
  rw [← hascii]
  omega

theorem caret_of_textBlock {output : String}
    (hindex : (k.validate (Utf8.encode name)).index = some i) (hne : name ≠ "")
    (hblock : textBlock name (k.report (Utf8.encode name)) = .ok output) :
    ∃ reason, output = unlines [message name reason i, name, caret i] := by
  obtain ⟨reason, hreason⟩ := k.exists_description_of_index hindex
  rw [textBlock_of_index hindex hreason, if_neg hne] at hblock
  split at hblock
  · exact ⟨reason, (Except.ok.inj hblock).symm⟩
  · cases hblock

/-- Under a name the caret stands below the character to blame, or right of it: that is where it
stands if the slash at the end is to blame and some character takes more than one byte. -/
theorem caret_is_below_fault_iff (k : Kind) (name output : String) (o : Outcome k.shape) (i : Nat)
    (h : k.validate (Utf8.encode name) = ⟨o, some i⟩) (hne : name ≠ "")
    (hblock : textBlock name (k.report (Utf8.encode name)) = .ok output) :
    (∃ reason, output = unlines [message name reason i, name, caret i]) ∧
      Utf8.charsBefore name.toList i ≤ i ∧
      (i = Utf8.charsBefore name.toList i ↔ (o.isTrailingSlash → Utf8.IsAscii name)) := by
  have hindex : (k.validate (Utf8.encode name)).index = some i := by rw [h]
  obtain ⟨front, c, back, hchars, hfront, hlength⟩ :=
    Utf8.exists_cut_of_isSafeCut (k.isSafeCut_of_validate hindex) hne
  have hbefore : Utf8.charsBefore name.toList i = front.length := by
    rw [hchars, ← hlength, Utf8.charsBefore_append]
  have hle : front.length ≤ i := hlength ▸ Utf8.length_le_length_encoded front
  rw [hbefore]
  refine ⟨caret_of_textBlock hindex hne hblock, hle, ?_⟩
  cases ho : o.isTrailingSlash with
  | false =>
    -- what stands in front was scanned
    have hascii := forall_ascii_front h ho hfront
    have hsame : i = front.length := hlength ▸ (Utf8.length_encoded_eq_iff front).mpr hascii
    simp [← hsame]
  | true =>
    obtain ⟨f, hcheck, rfl, rfl⟩ := (k.validate_eq_some_iff_check _ o i).mp h
    have hlast := Grammar.index_of_isTrailingSlash hcheck ho
    rw [eq_length_iff_isAscii hchars hlength hlast, forall_prop_of_true rfl]

/-- A letter of two bytes is blamed in the first name, the slash at the end in the second. -/
theorem carets_below_a_letter_and_a_slash :
    let letter := "topic name must not contain characters other than alphanumerics, '_', or '/'"
    let slash := "topic name must not end with a '/'"
    textBlock "/aé" (Kind.topicName.report (Utf8.encode "/aé")) =
      .ok (unlines [message "/aé" letter 2, "/aé", caret 2]) ∧
    2 = Utf8.charsBefore "/aé".toList 2 ∧
    textBlock "/a/" (Kind.topicName.report (Utf8.encode "/a/")) =
      .ok (unlines [message "/a/" slash 2, "/a/", caret 2]) ∧
    2 = Utf8.charsBefore "/a/".toList 2 := by
  intro letter slash
  have hletter : textBlock "/aé" (Kind.topicName.report (Utf8.encode "/aé")) =
      .ok (unlines [message "/aé" letter 2, "/aé", caret 2]) := rfl
  have hslash : textBlock "/a/" (Kind.topicName.report (Utf8.encode "/a/")) =
      .ok (unlines [message "/a/" slash 2, "/a/", caret 2]) := rfl
  obtain ⟨-, -, hbelow⟩ := caret_is_below_fault_iff .topicName "/aé" _ .unallowedByte 2
    (by decide) (by decide) hletter
  obtain ⟨-, -, hbelow'⟩ := caret_is_below_fault_iff .topicName "/a/" _ .trailingSlash 2
    (by decide) (by decide) hslash
  exact ⟨hletter, hbelow.mpr (fun h => nomatch h), hslash, hbelow'.mpr (fun _ => by decide)⟩

/-- Behind a letter of two bytes the caret of the slash at the end stands a column too far. -/
theorem caret_right_of_a_trailing_slash :
    (Kind.topicName.validate (Utf8.encode "/é/")).index = some 3 ∧
    textBlock "/é/" (Kind.topicName.report (Utf8.encode "/é/")) =
      .ok (unlines [message "/é/" "topic name must not end with a '/'" 3, "/é/", "   ^"]) ∧
    Utf8.charsBefore "/é/".toList 3 = 2 :=
  ⟨by decide, rfl, by decide⟩

end Cli
end RosNames
