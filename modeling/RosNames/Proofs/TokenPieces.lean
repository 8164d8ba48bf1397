import RosNames.Proofs.Joining
import RosNames.Proofs.NodeFault
import RosNames.Proofs.TopicFault

/-!
# Node names are the tokens of topic names

The rules for tokens and the rules for paths are lists of their own. On a single token they come to
the same verdict all the same, one byte further right behind the slash, and the limit on topic names
is greater by this byte. A name that begins with a slash is a path if and only if each piece between
slashes is a token.
-/

namespace RosNames

/-- The verdict on a token as a node name, and the one that goes with it on the token after a
slash as a topic name. -/
inductive Corresponds : Validation .nodeName → Validation .topicName → Prop
  | valid : Corresponds ⟨.valid, none⟩ ⟨.valid, none⟩
  | unallowedByte (i : Nat) :
      Corresponds ⟨.unallowedByte, some i⟩ ⟨.unallowedByte, some (i + 1)⟩
  | leadingDigit : Corresponds ⟨.leadingDigit, some 0⟩ ⟨.numericToken, some 1⟩
  | tooLong : Corresponds ⟨.tooLong, some 254⟩ ⟨.tooLong, some 255⟩

theorem joinTokens_eq_cons_intercalate {tokens : List Bytes} (h : tokens ≠ []) :
    joinTokens tokens = Byte.separator :: [Byte.separator].intercalate tokens := by
  induction tokens with
  | nil => exact absurd rfl h
  | cons token tokens ih =>
    cases tokens with
    | nil => simp [joinTokens]
    | cons next tokens =>
      rw [joinTokens_cons, ih (List.cons_ne_nil next tokens), List.intercalate_cons_cons]
      simp

/-- A name after a slash is a path if its pieces are tokens. -/
theorem isPath_separator_cons_iff (rest : Bytes) :
    IsPath (Byte.separator :: rest) ↔ ∀ piece ∈ rest.splitOn Byte.separator, IsToken piece := by
  have hsplit : rest.splitOn Byte.separator ≠ [] := List.splitOn_ne_nil Byte.separator rest
  constructor
  · rintro ⟨tokens, hne, htokens, hjoin⟩
    rw [joinTokens_eq_cons_intercalate hne] at hjoin
    have hrest : rest = [Byte.separator].intercalate tokens := (List.cons.inj hjoin).2
    have hnotMem : ∀ token ∈ tokens, Byte.separator ∉ token :=
      fun token htoken hmem => (htokens token htoken).ne_separator _ hmem rfl
    rwa [hrest, List.splitOn_intercalate Byte.separator hnotMem hne]
  · intro h
    refine ⟨rest.splitOn Byte.separator, hsplit, h, ?_⟩
    rw [joinTokens_eq_cons_intercalate hsplit, List.intercalate_splitOn]

section SingleToken

variable {token : Bytes}

theorem IsToken.isPath (h : IsToken token) : IsPath (Byte.separator :: token) :=
  ⟨[token], List.cons_ne_nil token [], by simpa using h, by simp [joinTokens]⟩

theorem delimited_separator_cons (hne : token ≠ []) (hslash : Byte.separator ∉ token) :
    TopicName.Delimited (Byte.separator :: token) := by
  refine ⟨Nat.succ_pos token.length, rfl, fun hlast => hslash ?_⟩
  have htail : token[token.length - 1]? = some Byte.separator := by
    have hpos : 0 < token.length := List.length_pos_iff.mpr hne
    obtain ⟨n, hn⟩ := Nat.exists_eq_add_of_le' hpos
    simpa [hn] using hlast
  exact List.mem_of_getElem? htail

theorem allowed_iff_of_ne_separator {b : UInt8} (h : b ≠ Byte.separator) :
    TopicName.Allowed b ↔ NodeName.Allowed b := by
  simp [TopicName.Allowed, NodeName.Allowed, h]

theorem allowed_separator : TopicName.Allowed Byte.separator := Or.inr (Or.inr (Or.inr rfl))

theorem flawAt_unallowedByte_separator_cons (hne : token ≠ []) (hslash : Byte.separator ∉ token)
    {i : Nat} (h : NodeName.FaultAt token i .unallowedByte) :
    TopicName.FlawAt (Byte.separator :: token) (i + 1) .unallowedByte := by
  obtain ⟨⟨b, hb, hbad⟩, hleast⟩ := h
  have hsame {j : Nat} {c : UInt8} (hc : token[j]? = some c) :
      TopicName.Allowed c ↔ NodeName.Allowed c := by
    apply allowed_iff_of_ne_separator
    rintro rfl
    exact hslash (List.mem_of_getElem? hc)
  refine ⟨delimited_separator_cons hne hslash, ⟨b, hb, fun hgood => hbad ((hsame hb).mp hgood)⟩, ?_⟩
  intro j hj c hc
  cases j with
  | zero =>
    obtain rfl : Byte.separator = c := by simpa using hc
    exact allowed_separator
  | succ j => exact (hsame hc).mpr (hleast j (Nat.lt_of_succ_lt_succ hj) c hc)

theorem flawAt_numericToken_separator_cons (hne : token ≠ []) (hslash : Byte.separator ∉ token)
    (hbytes : ∀ b ∈ token, NodeName.Allowed b) (hdigit : NodeName.BeginsWithDigit token) :
    TopicName.FlawAt (Byte.separator :: token) 1 .numericToken := by
  have hallowed : ∀ b ∈ Byte.separator :: token, TopicName.Allowed b := by
    intro b hb
    rcases List.mem_cons.mp hb with rfl | hb
    · exact allowed_separator
    · have hneb : b ≠ Byte.separator := fun h => hslash (h ▸ hb)
      exact (allowed_iff_of_ne_separator hneb).mpr (hbytes b hb)
  refine ⟨delimited_separator_cons hne hslash, hallowed, Nat.le_refl 1, rfl, hdigit, ?_⟩
  intro j hj hstarts
  exact absurd hstarts.1 (Nat.not_le.mpr hj)

theorem corresponds_validate (hne : token ≠ []) (hslash : Byte.separator ∉ token) :
    Corresponds (Kind.nodeName.validate token)
      (Kind.topicName.validate (Byte.separator :: token)) := by
  rcases NodeName.validate_cases token with ⟨hv, htoken, hshort⟩ | ⟨o, i, hv, hfault⟩
  · have hlength : (Byte.separator :: token).length ≤ 256 := Nat.succ_le_succ hshort
    rw [hv, htoken.isPath.validate_topicName, if_pos hlength]
    exact .valid
  · rw [hv]
    cases o with
    | emptyName => exact absurd (List.length_eq_zero_iff.mp hfault.1) hne
    | unallowedByte =>
      rw [TopicName.validate_of_faultAt (o := .unallowedByte)
        (flawAt_unallowedByte_separator_cons hne hslash hfault)]
      exact .unallowedByte i
    | leadingDigit =>
      obtain ⟨-, hbytes, hdigit, rfl⟩ := hfault
      rw [TopicName.validate_of_faultAt (o := .numericToken)
        (flawAt_numericToken_separator_cons hne hslash hbytes hdigit)]
      exact .leadingDigit
    | tooLong =>
      obtain ⟨hbytes, hdigit, hlong, rfl⟩ := hfault
      have htoken : IsToken token :=
        (NodeName.isToken_iff token).mpr ⟨List.length_pos_iff.mpr hne, hbytes, hdigit⟩
      have hlength : ¬ (Byte.separator :: token).length ≤ 256 :=
        Nat.not_le.mpr (Nat.succ_lt_succ hlong)
      rw [htoken.isPath.validate_topicName, if_neg hlength]
      exact .tooLong
    | valid => exact hfault.elim

end SingleToken

/-- The two sets of rules agree on a single token, and a topic name is made of node names. -/
theorem tokens_agree_with_paths :
    (∀ token, token ≠ [] → Byte.separator ∉ token →
      Corresponds (Kind.nodeName.validate token)
        (Kind.topicName.validate (Byte.separator :: token))) ∧
    ∀ rest : Bytes, (Kind.topicName.validate (Byte.separator :: rest)).isValidIgnoringLength ↔
      ∀ piece ∈ rest.splitOn Byte.separator,
        (Kind.nodeName.validate piece).isValidIgnoringLength := by
  refine ⟨fun token hne hslash => corresponds_validate hne hslash, fun rest => ?_⟩
  have hpiece (piece : Bytes) :
      (Kind.nodeName.validate piece).isValidIgnoringLength ↔ IsToken piece := by
    rw [Kind.isValidIgnoringLength_validate_iff]
    exact NodeName.flaw?_eq_none_iff_isToken piece
  simp only [hpiece]
  rw [Kind.isValidIgnoringLength_validate_iff, ← isPath_separator_cons_iff]
  exact topicGrammar_flaw?_eq_none_iff (Byte.separator :: rest)

/-- The token `9a` and the topic name `/9a`. -/
theorem verdicts_on_a_numeric_token :
    let token : Bytes := [0x39, 0x61]
    Kind.nodeName.validate token = ⟨.leadingDigit, some 0⟩ ∧
      Corresponds ⟨.leadingDigit, some 0⟩ (Kind.topicName.validate (Byte.separator :: token)) := by
  intro token
  have hverdict : Kind.nodeName.validate token = ⟨.leadingDigit, some 0⟩ := by decide
  have h := tokens_agree_with_paths.1 token (by decide) (by decide)
  rw [hverdict] at h
  exact ⟨hverdict, h⟩

end RosNames
