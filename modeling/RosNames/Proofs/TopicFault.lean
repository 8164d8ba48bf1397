import RosNames.Proofs.Verdict

/-!
# The first fault of a topic name

Each outcome for a topic name has a condition of its own on the name and the index, which speaks of
bytes and positions and not of rules. The conditions exclude one another, and a name that meets
none of them is valid.
-/

namespace RosNames.TopicName

def Allowed (b : UInt8) : Prop :=
  Byte.IsLetter b ∨ Byte.IsDigit b ∨ b = 0x5f ∨ b = Byte.separator

def Delimited (s : Bytes) : Prop :=
  0 < s.length ∧ s[0]? = some Byte.separator ∧ s[s.length - 1]? ≠ some Byte.separator

/-- There is a slash or a digit at `i`, right after a slash. -/
def StartsBadly (s : Bytes) (i : Nat) : Prop :=
  1 ≤ i ∧ s[i - 1]? = some Byte.separator ∧
    (s[i]? = some Byte.separator ∨ ∃ b, s[i]? = some b ∧ Byte.IsDigit b)

/-- What a name looks like for which position `i` is to blame, its length apart. -/
def FlawAt (s : Bytes) (i : Nat) : Outcome .path → Prop
  | .emptyName => s.length = 0 ∧ i = 0
  | .relative => 0 < s.length ∧ s[0]? ≠ some Byte.separator ∧ i = 0
  | .trailingSlash =>
    s[0]? = some Byte.separator ∧ s[s.length - 1]? = some Byte.separator ∧ i = s.length - 1
  | .unallowedByte => Delimited s ∧
      (∃ b, s[i]? = some b ∧ ¬ Allowed b) ∧ ∀ j < i, ∀ b, s[j]? = some b → Allowed b
  | .repeatedSlash => Delimited s ∧ (∀ b ∈ s, Allowed b) ∧
      1 ≤ i ∧ s[i - 1]? = some Byte.separator ∧ s[i]? = some Byte.separator ∧
      ∀ j < i, ¬ StartsBadly s j
  | .numericToken => Delimited s ∧ (∀ b ∈ s, Allowed b) ∧
      1 ≤ i ∧ s[i - 1]? = some Byte.separator ∧ (∃ b, s[i]? = some b ∧ Byte.IsDigit b) ∧
      ∀ j < i, ¬ StartsBadly s j
  | .valid => False
  | .tooLong => False

/-- The same for all outcomes: a name is too long only if it has no flaw at any position. -/
def FaultAt (s : Bytes) (i : Nat) : Outcome .path → Prop
  | .tooLong => 256 < s.length ∧ (∀ o j, ¬ FlawAt s j o) ∧ i = 255
  | o => FlawAt s i o

theorem allows_iff_allowed (b : UInt8) : topicGrammar.allows b ↔ Allowed b := by
  simp [Grammar.allows, topicGrammar, Allowed, Byte.isTokenByte, Byte.isAlphanumeric_iff, or_assoc]

theorem delimited_iff (s : Bytes) : Delimited s ↔ topicGrammar.Keeps s .nonempty ∧
    topicGrammar.Keeps s .absolute ∧ topicGrammar.Keeps s .noTrailingSlash := by
  simp only [Delimited, Grammar.Keeps, List.head?_eq_getElem?, List.getLast?_eq_getElem?,
    List.length_pos_iff]

theorem startsBadly_succ_iff (s : Bytes) (i : Nat) :
    StartsBadly s (i + 1) ↔ faultAfter? s i ≠ none := by
  rw [Option.ne_none_iff_exists']
  simp only [faultAfter?_eq_some_iff, StartsBadly, Nat.le_add_left, true_and, Nat.add_sub_cancel]
  constructor
  · rintro ⟨hslash, hnext | hnext⟩
    · exact ⟨.repeatedSlash, hslash, Or.inl ⟨hnext, rfl⟩⟩
    · exact ⟨.numericToken, hslash, Or.inr ⟨hnext, rfl⟩⟩
  · rintro ⟨fault, hslash, ⟨hnext, -⟩ | ⟨hnext, -⟩⟩
    · exact ⟨hslash, Or.inl hnext⟩
    · exact ⟨hslash, Or.inr hnext⟩

theorem forall_not_startsBadly_iff (s : Bytes) (i : Nat) :
    (∀ j < i + 1, ¬ StartsBadly s j) ↔ ∀ j < i, faultAfter? s j = none := by
  constructor
  · intro h j hj
    simpa [startsBadly_succ_iff] using h (j + 1) (Nat.succ_lt_succ hj)
  · intro h j hj
    cases j with
    | zero => simp [StartsBadly]
    | succ j => simp [startsBadly_succ_iff, h j (Nat.lt_of_succ_lt_succ hj)]

theorem flaw?_eq_some_iff_firstBroken (s : Bytes) (f : Finding) :
    topicGrammar.flaw? s = some f ↔ topicGrammar.FirstBroken s Shape.path.flawRules f := by
  rw [Grammar.flaw?_eq_some_iff]
  simp [Grammar.IsRoot, topicGrammar]

theorem flawAt_of_flaw? {s : Bytes} {f : Finding} (h : topicGrammar.flaw? s = some f) :
    FlawAt s f.index (.ofFault .path f.fault) := by
  rcases (flaw?_eq_some_iff_firstBroken s f).mp h with
    h | ⟨hne, h | ⟨hhead, h | ⟨hlast, h | ⟨hallowed, h | ⟨-, h⟩⟩⟩⟩⟩
  · obtain ⟨rfl, rfl⟩ := h
    exact ⟨rfl, rfl⟩
  · obtain ⟨h, rfl⟩ := h
    exact ⟨List.length_pos_iff.mpr hne, by rwa [← List.head?_eq_getElem?], rfl⟩
  · obtain ⟨h, rfl⟩ := h
    exact ⟨by rwa [← List.head?_eq_getElem?], by rwa [← List.getLast?_eq_getElem?], rfl⟩
  · obtain ⟨fault, index⟩ := f
    obtain ⟨rfl, ⟨b, hb, hbad⟩, hleast⟩ := h
    refine ⟨(delimited_iff s).mpr ⟨hne, hhead, hlast⟩, ⟨b, hb, ?_⟩, fun j hj c hc => ?_⟩
    · simp [← allows_iff_allowed, hbad]
    · exact (allows_iff_allowed c).mp (hleast j hj c hc)
  · obtain ⟨fault, index⟩ := f
    obtain ⟨i, hi, rfl, hleast⟩ := h
    have hdelimited := (delimited_iff s).mpr ⟨hne, hhead, hlast⟩
    have hbytes : ∀ b ∈ s, Allowed b := fun b hb => (allows_iff_allowed b).mp (hallowed b hb)
    have hfirst := (forall_not_startsBadly_iff s i).mpr hleast
    rcases (faultAfter?_eq_some_iff s i fault).mp hi with ⟨hslash, ⟨hnext, rfl⟩ | ⟨hnext, rfl⟩⟩
    · exact ⟨hdelimited, hbytes, Nat.succ_pos i, hslash, hnext, hfirst⟩
    · exact ⟨hdelimited, hbytes, Nat.succ_pos i, hslash, hnext, hfirst⟩
  · exact h.elim

theorem flaw?_of_breaks_allowedBytes {s : Bytes} {f : Finding} (hs : Delimited s)
    (h : topicGrammar.Breaks s .allowedBytes f) : topicGrammar.flaw? s = some f := by
  obtain ⟨hne, hhead, hlast⟩ := (delimited_iff s).mp hs
  rw [flaw?_eq_some_iff_firstBroken]
  exact Or.inr ⟨hne, Or.inr ⟨hhead, Or.inr ⟨hlast, Or.inl h⟩⟩⟩

theorem flaw?_of_faultAfter? {s : Bytes} {i : Nat} {fault : Fault} (hs : Delimited s)
    (hbytes : ∀ b ∈ s, Allowed b) (h : faultAfter? s i = some fault)
    (hfirst : ∀ j < i + 1, ¬ StartsBadly s j) :
    topicGrammar.flaw? s = some ⟨fault, i + 1⟩ := by
  obtain ⟨hne, hhead, hlast⟩ := (delimited_iff s).mp hs
  have hallowed : topicGrammar.Keeps s .allowedBytes :=
    fun b hb => (allows_iff_allowed b).mpr (hbytes b hb)
  have hbreaks : topicGrammar.Breaks s .tokenStarts ⟨fault, i + 1⟩ :=
    ⟨i, h, rfl, (forall_not_startsBadly_iff s i).mp hfirst⟩
  rw [flaw?_eq_some_iff_firstBroken]
  exact Or.inr ⟨hne, Or.inr ⟨hhead, Or.inr ⟨hlast, Or.inr ⟨hallowed, Or.inl hbreaks⟩⟩⟩⟩

theorem exists_flaw?_of_flawAt {s : Bytes} {i : Nat} {o : Outcome .path} (h : FlawAt s i o) :
    ∃ fault, topicGrammar.flaw? s = some ⟨fault, i⟩ ∧ Outcome.ofFault .path fault = o := by
  cases o with
  | emptyName =>
    obtain ⟨hlength, rfl⟩ := h
    refine ⟨.emptyName, (flaw?_eq_some_iff_firstBroken _ _).mpr ?_, rfl⟩
    exact Or.inl ⟨List.length_eq_zero_iff.mp hlength, rfl⟩
  | relative =>
    obtain ⟨hlength, hhead, rfl⟩ := h
    rw [← List.head?_eq_getElem?] at hhead
    refine ⟨.relative, (flaw?_eq_some_iff_firstBroken _ _).mpr ?_, rfl⟩
    exact Or.inr ⟨List.length_pos_iff.mp hlength, Or.inl ⟨hhead, rfl⟩⟩
  | trailingSlash =>
    obtain ⟨hhead, hlast, rfl⟩ := h
    rw [← List.head?_eq_getElem?] at hhead
    rw [← List.getLast?_eq_getElem?] at hlast
    have hne : s ≠ [] := List.ne_nil_of_mem (List.mem_of_head? hhead)
    refine ⟨.trailingSlash, (flaw?_eq_some_iff_firstBroken _ _).mpr ?_, rfl⟩
    exact Or.inr ⟨hne, Or.inr ⟨hhead, Or.inl ⟨hlast, rfl⟩⟩⟩
  | unallowedByte =>
    obtain ⟨hs, ⟨b, hb, hbad⟩, hleast⟩ := h
    refine ⟨.unallowedByte, flaw?_of_breaks_allowedBytes hs ⟨rfl, ⟨b, hb, ?_⟩, fun j hj c hc => ?_⟩,
      rfl⟩
    · simpa [← allows_iff_allowed] using hbad
    · exact (allows_iff_allowed c).mpr (hleast j hj c hc)
  | repeatedSlash =>
    obtain ⟨hs, hbytes, hi, hslash, hnext, hfirst⟩ := h
    obtain ⟨i, rfl⟩ := Nat.exists_eq_add_of_le' hi
    have hafter := (faultAfter?_eq_some_iff s i _).mpr ⟨hslash, Or.inl ⟨hnext, rfl⟩⟩
    exact ⟨.repeatedSlash, flaw?_of_faultAfter? hs hbytes hafter hfirst, rfl⟩
  | numericToken =>
    obtain ⟨hs, hbytes, hi, hslash, hnext, hfirst⟩ := h
    obtain ⟨i, rfl⟩ := Nat.exists_eq_add_of_le' hi
    have hafter := (faultAfter?_eq_some_iff s i _).mpr ⟨hslash, Or.inr ⟨hnext, rfl⟩⟩
    exact ⟨.numericToken, flaw?_of_faultAfter? hs hbytes hafter hfirst, rfl⟩
  | valid => exact h.elim
  | tooLong => exact h.elim

theorem flaw?_eq_none_iff_flawAt (s : Bytes) :
    topicGrammar.flaw? s = none ↔ ∀ o j, ¬ FlawAt s j o := by
  constructor
  · intro hnone o j h
    obtain ⟨fault, hsome, -⟩ := exists_flaw?_of_flawAt h
    simp [hnone] at hsome
  · intro h
    cases hf : topicGrammar.flaw? s with
    | none => rfl
    | some f => exact absurd (flawAt_of_flaw? hf) (h _ _)

theorem faultAt_tooLong_iff (s : Bytes) (i : Nat) : FaultAt s i .tooLong ↔
    topicGrammar.flaw? s = none ∧ topicGrammar.maxLength < s.length ∧ i = 255 := by
  rw [flaw?_eq_none_iff_flawAt]
  exact and_left_comm

theorem faultAt_iff_flawAt (s : Bytes) (i : Nat) {o : Outcome .path} (ho : o ≠ .tooLong) :
    FaultAt s i o ↔ FlawAt s i o := by
  cases o with
  | tooLong => exact absurd rfl ho
  | _ => rfl

theorem validate_eq_valid_or_faultAt (s : Bytes) : Kind.topicName.validate s = ⟨.valid, none⟩ ∨
    ∃ o i, FaultAt s i o ∧ Kind.topicName.validate s = ⟨o, some i⟩ := by
  rcases Kind.validate_cases .topicName s with ⟨f, h, hv⟩ | ⟨h, hlong, hv⟩ | ⟨-, -, hv⟩
  · have ho : Outcome.ofFault .path f.fault ≠ .tooLong := Outcome.ofFault_ne_tooLong_of_flaw? h
    exact Or.inr ⟨_, _, (faultAt_iff_flawAt s _ ho).mpr (flawAt_of_flaw? h), hv⟩
  · exact Or.inr ⟨_, _, (faultAt_tooLong_iff s _).mpr ⟨h, hlong, rfl⟩, hv⟩
  · exact Or.inl hv

theorem validate_of_faultAt {s : Bytes} {i : Nat} {o : Outcome .path} (h : FaultAt s i o) :
    Kind.topicName.validate s = ⟨o, some i⟩ := by
  by_cases ho : o = .tooLong
  · subst ho
    obtain ⟨hnone, hlong, rfl⟩ := (faultAt_tooLong_iff s i).mp h
    exact Kind.validate_of_long .topicName s hnone hlong
  · obtain ⟨fault, hflaw, rfl⟩ := exists_flaw?_of_flawAt ((faultAt_iff_flawAt s i ho).mp h)
    exact Kind.validate_of_flaw? .topicName s hflaw

/-- The conditions decide between all outcomes and positions, and exclude one another. -/
theorem first_fault (s : Bytes) :
    (∀ o i, Kind.topicName.validate s = ⟨o, some i⟩ ↔ FaultAt s i o) ∧
    (Kind.topicName.validate s = ⟨.valid, none⟩ ↔ ∀ o i, ¬ FaultAt s i o) ∧
    (∀ o i o' i', FaultAt s i o → FaultAt s i' o' → o = o' ∧ i = i') ∧
    (Kind.topicName.validate s = ⟨.valid, none⟩ ∨
      ∃ o i, FaultAt s i o ∧ Kind.topicName.validate s = ⟨o, some i⟩) := by
  have hunique {o o' : Outcome .path} {i i' : Nat} (h : FaultAt s i o)
      (h' : Kind.topicName.validate s = ⟨o', some i'⟩) : o = o' ∧ i = i' := by
    obtain ⟨ho, hi⟩ := Validation.mk.inj ((validate_of_faultAt h).symm.trans h')
    exact ⟨ho, Option.some.inj hi⟩
  refine ⟨fun o i => ⟨fun hv => ?_, validate_of_faultAt⟩, ⟨fun hv o i h => ?_, fun h => ?_⟩,
    fun o i o' i' h h' => hunique h (validate_of_faultAt h'), validate_eq_valid_or_faultAt s⟩
  · rcases validate_eq_valid_or_faultAt s with hvalid | ⟨o', i', h, -⟩
    · exact absurd (congrArg Validation.index (hv.symm.trans hvalid)) (Option.some_ne_none i)
    · obtain ⟨rfl, rfl⟩ := hunique h hv
      exact h
  · have hindex := congrArg Validation.index ((validate_of_faultAt h).symm.trans hv)
    exact Option.some_ne_none i hindex
  · exact (validate_eq_valid_or_faultAt s).resolve_right fun ⟨o, i, hfault, _⟩ => h o i hfault

/-- A name with an empty and a numeric token: the earlier of them is to blame. -/
theorem first_fault_of_two_flaws :
    FaultAt [0x2f, 0x61, 0x2f, 0x2f, 0x31] 3 .repeatedSlash ∧
      ¬ FaultAt [0x2f, 0x61, 0x2f, 0x2f, 0x31] 4 .numericToken := by
  have h := first_fault [0x2f, 0x61, 0x2f, 0x2f, 0x31]
  have hfault : FaultAt [0x2f, 0x61, 0x2f, 0x2f, 0x31] 3 .repeatedSlash := (h.1 _ _).mp (by decide)
  exact ⟨hfault, fun h' => absurd (h.2.2.1 _ _ _ _ hfault h').1 (by decide)⟩

end RosNames.TopicName
