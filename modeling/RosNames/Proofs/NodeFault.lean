import RosNames.Proofs.Path

/-!
# The verdict on a node name

A node name is a token. An unallowed byte is to blame wherever it stands, also behind a digit at the
front, and a name is too long only if it is a token. Each outcome has a condition of its own on the
name and the index, as for topic names.
-/

namespace RosNames.NodeName

def Allowed (b : UInt8) : Prop := Byte.IsLetter b ∨ Byte.IsDigit b ∨ b = 0x5f

def BeginsWithDigit (s : Bytes) : Prop := ∃ b, s[0]? = some b ∧ Byte.IsDigit b

/-- What a name looks like for which position `i` is to blame. -/
def FaultAt (s : Bytes) (i : Nat) : Outcome .token → Prop
  | .emptyName => s.length = 0 ∧ i = 0
  | .unallowedByte =>
    (∃ b, s[i]? = some b ∧ ¬ Allowed b) ∧ ∀ j < i, ∀ b, s[j]? = some b → Allowed b
  | .leadingDigit => 0 < s.length ∧ (∀ b ∈ s, Allowed b) ∧ BeginsWithDigit s ∧ i = 0
  | .tooLong => (∀ b ∈ s, Allowed b) ∧ ¬ BeginsWithDigit s ∧ 255 < s.length ∧ i = 254
  | .valid => False

theorem isTokenByte_iff_allowed (b : UInt8) : Byte.isTokenByte b ↔ Allowed b := by
  simp [Byte.isTokenByte, Byte.isAlphanumeric_iff, Allowed, or_assoc]

theorem allows_iff_allowed (b : UInt8) : nodeGrammar.allows b ↔ Allowed b := by
  simp [Grammar.allows, nodeGrammar, isTokenByte_iff_allowed]

theorem keeps_allowedBytes_iff (s : Bytes) :
    nodeGrammar.Keeps s .allowedBytes ↔ ∀ b ∈ s, Allowed b := by
  simp only [Grammar.Keeps, allows_iff_allowed]

theorem keeps_noLeadingDigit_iff (s : Bytes) :
    nodeGrammar.Keeps s .noLeadingDigit ↔ ¬ BeginsWithDigit s := by
  simp [Grammar.Keeps, BeginsWithDigit, List.head?_eq_getElem?]

theorem flaw?_eq_some_iff_firstBroken (s : Bytes) (f : Finding) :
    nodeGrammar.flaw? s = some f ↔ nodeGrammar.FirstBroken s Shape.token.flawRules f := by
  rw [Grammar.flaw?_eq_some_iff]
  simp [Grammar.IsRoot, nodeGrammar]

theorem flaw?_eq_none_iff (s : Bytes) : nodeGrammar.flaw? s = none ↔
    0 < s.length ∧ (∀ b ∈ s, Allowed b) ∧ ¬ BeginsWithDigit s := by
  rw [Grammar.flaw?_eq_none_iff, ← keeps_allowedBytes_iff, ← keeps_noLeadingDigit_iff,
    List.length_pos_iff]
  simp [Grammar.IsRoot, nodeGrammar, Shape.flawRules, Grammar.Keeps]

theorem isToken_iff (s : Bytes) :
    IsToken s ↔ 0 < s.length ∧ (∀ b ∈ s, Allowed b) ∧ ¬ BeginsWithDigit s := by
  simp only [← isTokenByte_iff_allowed]
  constructor
  · rintro h
    refine ⟨List.length_pos_iff.mpr h.ne_nil, h.isTokenByte, ?_⟩
    obtain ⟨b, rest, rfl, hb, -⟩ := h
    simp [BeginsWithDigit, Byte.not_isDigit_of_opensToken hb]
  · rintro ⟨hlength, hbytes, hdigit⟩
    obtain ⟨b, rest, rfl⟩ := List.exists_cons_of_length_pos hlength
    obtain ⟨hb, hrest⟩ := List.forall_mem_cons.mp hbytes
    have hdigit : ¬ Byte.IsDigit b := by simpa [BeginsWithDigit] using hdigit
    exact ⟨b, rest, rfl, Byte.opensToken_of_isTokenByte hb hdigit,
      fun c hc => (Byte.isTokenByte_iff c).mp (hrest c hc)⟩

theorem flaw?_eq_none_iff_isToken (s : Bytes) : nodeGrammar.flaw? s = none ↔ IsToken s := by
  rw [flaw?_eq_none_iff, isToken_iff]

theorem faultAt_of_flaw? {s : Bytes} {f : Finding} (h : nodeGrammar.flaw? s = some f) :
    FaultAt s f.index (.ofFault .token f.fault) := by
  rcases (flaw?_eq_some_iff_firstBroken s f).mp h with h | ⟨hne, h | ⟨hallowed, h | ⟨-, h⟩⟩⟩
  · obtain ⟨rfl, rfl⟩ := h
    exact ⟨rfl, rfl⟩
  · obtain ⟨fault, index⟩ := f
    obtain ⟨rfl, ⟨b, hb, hbad⟩, hleast⟩ := h
    refine ⟨⟨b, hb, ?_⟩, fun j hj c hc => (allows_iff_allowed c).mp (hleast j hj c hc)⟩
    simp [← allows_iff_allowed, hbad]
  · obtain ⟨hdigit, rfl⟩ := h
    rw [List.head?_eq_getElem?] at hdigit
    exact ⟨List.length_pos_iff.mpr hne, (keeps_allowedBytes_iff s).mp hallowed, hdigit, rfl⟩
  · exact h.elim

theorem faultAt_tooLong_iff (s : Bytes) (i : Nat) : FaultAt s i .tooLong ↔
    nodeGrammar.flaw? s = none ∧ nodeGrammar.maxLength < s.length ∧ i = 254 := by
  rw [flaw?_eq_none_iff]
  constructor
  · rintro ⟨hbytes, hdigit, hlong, rfl⟩
    exact ⟨⟨Nat.lt_trans (by decide) hlong, hbytes, hdigit⟩, hlong, rfl⟩
  · rintro ⟨⟨-, hbytes, hdigit⟩, hlong, rfl⟩
    exact ⟨hbytes, hdigit, hlong, rfl⟩

theorem validate_of_faultAt {s : Bytes} {i : Nat} {o : Outcome .token} (h : FaultAt s i o) :
    Kind.nodeName.validate s = ⟨o, some i⟩ := by
  have hflaw {f : Finding} (hf : nodeGrammar.FirstBroken s Shape.token.flawRules f) :
      Kind.nodeName.validate s = ⟨.ofFault .token f.fault, some f.index⟩ :=
    Kind.validate_of_flaw? .nodeName s ((flaw?_eq_some_iff_firstBroken s f).mpr hf)
  cases o with
  | emptyName =>
    obtain ⟨hlength, rfl⟩ := h
    exact hflaw (f := ⟨.emptyName, 0⟩) (Or.inl ⟨List.length_eq_zero_iff.mp hlength, rfl⟩)
  | unallowedByte =>
    obtain ⟨⟨b, hb, hbad⟩, hleast⟩ := h
    have hne : s ≠ [] := List.ne_nil_of_mem (List.mem_of_getElem? hb)
    have hbreaks : nodeGrammar.Breaks s .allowedBytes ⟨.unallowedByte, i⟩ :=
      ⟨rfl, ⟨b, hb, by simpa [← allows_iff_allowed] using hbad⟩,
        fun j hj c hc => (allows_iff_allowed c).mpr (hleast j hj c hc)⟩
    exact hflaw (f := ⟨.unallowedByte, i⟩) (Or.inr ⟨hne, Or.inl hbreaks⟩)
  | leadingDigit =>
    obtain ⟨hlength, hbytes, hdigit, rfl⟩ := h
    rw [BeginsWithDigit, ← List.head?_eq_getElem?] at hdigit
    exact hflaw (f := ⟨.leadingDigit, 0⟩) (Or.inr ⟨List.length_pos_iff.mp hlength,
      Or.inr ⟨(keeps_allowedBytes_iff s).mpr hbytes, Or.inl ⟨hdigit, rfl⟩⟩⟩)
  | tooLong =>
    obtain ⟨hnone, hlong, rfl⟩ := (faultAt_tooLong_iff s i).mp h
    exact Kind.validate_of_long .nodeName s hnone hlong
  | valid => exact h.elim

theorem validate_cases (s : Bytes) :
    (Kind.nodeName.validate s = ⟨.valid, none⟩ ∧ IsToken s ∧ s.length ≤ 255) ∨
    ∃ o i, Kind.nodeName.validate s = ⟨o, some i⟩ ∧ FaultAt s i o := by
  rcases Kind.validate_cases .nodeName s with ⟨f, h, hv⟩ | ⟨h, hlong, hv⟩ | ⟨h, hshort, hv⟩
  · exact Or.inr ⟨_, _, hv, faultAt_of_flaw? h⟩
  · exact Or.inr ⟨_, _, hv, (faultAt_tooLong_iff s _).mpr ⟨h, hlong, rfl⟩⟩
  · exact Or.inl ⟨hv, (flaw?_eq_none_iff_isToken s).mp h, hshort⟩

theorem validate_eq_some_iff (s : Bytes) (o : Outcome .token) (i : Nat) :
    Kind.nodeName.validate s = ⟨o, some i⟩ ↔ FaultAt s i o := by
  constructor
  · intro h
    rcases validate_cases s with ⟨hvalid, -, -⟩ | ⟨o', i', hv, hfault⟩
    · exact absurd (congrArg Validation.index (h.symm.trans hvalid)) (Option.some_ne_none i)
    · obtain ⟨rfl, hi⟩ := Validation.mk.inj (h.symm.trans hv)
      obtain rfl := Option.some.inj hi
      exact hfault
  · exact validate_of_faultAt

theorem validate_eq_valid_iff (s : Bytes) : Kind.nodeName.validate s = ⟨.valid, none⟩ ↔
    IsToken s ∧ 1 ≤ s.length ∧ s.length ≤ 255 := by
  constructor
  · intro h
    rcases validate_cases s with ⟨-, htoken, hshort⟩ | ⟨o, i, hv, -⟩
    · exact ⟨htoken, List.length_pos_iff.mpr htoken.ne_nil, hshort⟩
    · exact absurd (congrArg Validation.index (hv.symm.trans h)) (Option.some_ne_none i)
  · rintro ⟨htoken, -, hshort⟩
    exact Kind.validate_of_short .nodeName s ((flaw?_eq_none_iff_isToken s).mpr htoken) hshort

/-- An unallowed byte decides wherever it stands and whatever else is wrong. -/
theorem outcome_eq_unallowedByte_iff (s : Bytes) :
    (Kind.nodeName.validate s).outcome = .unallowedByte ↔ ∃ b ∈ s, ¬ Allowed b := by
  rcases validate_cases s with ⟨hv, htoken, -⟩ | ⟨o, i, hv, hfault⟩
  · have hbytes := ((isToken_iff s).mp htoken).2.1
    simpa [hv] using hbytes
  · rw [hv]
    cases o with
    | emptyName => simp [List.length_eq_zero_iff.mp hfault.1]
    | unallowedByte =>
      obtain ⟨⟨b, hb, hbad⟩, -⟩ := hfault
      exact iff_of_true rfl ⟨b, List.mem_of_getElem? hb, hbad⟩
    | leadingDigit => simpa using hfault.2.1
    | tooLong => simpa using hfault.1
    | valid => exact hfault.elim

/-- A digit at the front decides about a name of allowed bytes, however long it is. -/
theorem outcome_eq_leadingDigit_iff (s : Bytes) :
    (Kind.nodeName.validate s).outcome = .leadingDigit ↔
      (∀ b ∈ s, Allowed b) ∧ BeginsWithDigit s := by
  rcases validate_cases s with ⟨hv, htoken, -⟩ | ⟨o, i, hv, hfault⟩
  · have hdigit := ((isToken_iff s).mp htoken).2.2
    simp [hv, hdigit]
  · rw [hv]
    cases o with
    | emptyName => simp [BeginsWithDigit, List.length_eq_zero_iff.mp hfault.1]
    | unallowedByte =>
      obtain ⟨⟨b, hb, hbad⟩, -⟩ := hfault
      refine iff_of_false (by simp) fun h => hbad (h.1 b (List.mem_of_getElem? hb))
    | leadingDigit => exact iff_of_true rfl ⟨hfault.2.1, hfault.2.2.1⟩
    | tooLong => simp [hfault.2.1]
    | valid => exact hfault.elim

/-- The conditions decide between all outcomes and positions. An unallowed byte comes before a digit
at the front, and both come before the length. -/
theorem verdict_by_conditions (s : Bytes) :
    (∀ o i, Kind.nodeName.validate s = ⟨o, some i⟩ ↔ FaultAt s i o) ∧
    (Kind.nodeName.validate s = ⟨.valid, none⟩ ↔ IsToken s ∧ 1 ≤ s.length ∧ s.length ≤ 255) ∧
    (Kind.nodeName.validate s = ⟨.valid, none⟩ ∨
      ∃ o i, Kind.nodeName.validate s = ⟨o, some i⟩ ∧ FaultAt s i o) ∧
    ((Kind.nodeName.validate s).outcome = .unallowedByte ↔ ∃ b ∈ s, ¬ Allowed b) ∧
    ((Kind.nodeName.validate s).outcome = .leadingDigit ↔
      (∀ b ∈ s, Allowed b) ∧ BeginsWithDigit s) :=
  ⟨validate_eq_some_iff s, validate_eq_valid_iff s, (validate_cases s).imp_left And.left,
    outcome_eq_unallowedByte_iff s, outcome_eq_leadingDigit_iff s⟩

-- the blank is behind a digit at the front
example : Kind.nodeName.validate [0x34, 0x20, 0x61] = ⟨.unallowedByte, some 1⟩ := by
  decide

end RosNames.NodeName
