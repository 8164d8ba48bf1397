import RosNames.Proofs.ZeroByte

/-!
# Bytes put behind a name

A rule that a name breaks stays broken, by the same finding, when more bytes follow, unless it is
about the end of the name. A rule that the name keeps can then be broken only by the bytes that
follow. So along the list of the rules either the finding about the name is reached again or an
earlier rule is broken behind it, and no name that is wrong at its front becomes valid.
-/

namespace RosNames

namespace Grammar

variable {g : Grammar} {name : Bytes} (more : Bytes)

theorem head?_append_of_ne_nil (hne : name ≠ []) : (name ++ more).head? = name.head? := by
  obtain ⟨b, rest, rfl⟩ := List.exists_cons_of_ne_nil hne
  rfl

theorem breaks_allowedBytes_append {f : Finding} (h : g.Breaks name .allowedBytes f) :
    g.Breaks (name ++ more) .allowedBytes f := by
  obtain ⟨hfault, ⟨b, hb, hbad⟩, hleast⟩ := h
  have hlt : f.index < name.length := (List.getElem?_eq_some_iff.mp hb).1
  refine ⟨hfault, ⟨b, by rwa [List.getElem?_append_left hlt], hbad⟩, fun j hj c hc => ?_⟩
  rw [List.getElem?_append_left (Nat.lt_trans hj hlt)] at hc
  exact hleast j hj c hc

theorem breaks_tokenStarts_append {f : Finding} (h : g.Breaks name .tokenStarts f) :
    g.Breaks (name ++ more) .tokenStarts f := by
  obtain ⟨i, hi, hindex, hleast⟩ := h
  have hlt : i + 1 < name.length := succ_lt_length_of_faultAfter? hi
  refine ⟨i, by rwa [faultAfter?_append_of_lt hlt], hindex, fun j hj => ?_⟩
  rw [faultAfter?_append_of_lt (Nat.lt_trans (Nat.succ_lt_succ hj) hlt)]
  exact hleast j hj

/-- What breaks a rule is not mended by what follows, a slash at the end apart. -/
theorem breaks_append (hne : name ≠ []) {r : Rule} {f : Finding} (hf : f.fault ≠ .trailingSlash)
    (h : g.Breaks name r f) : g.Breaks (name ++ more) r f := by
  cases r with
  | nonempty => exact absurd h.1 hne
  | absolute => exact ⟨by rw [head?_append_of_ne_nil more hne]; exact h.1, h.2⟩
  | noTrailingSlash => exact absurd (congrArg Finding.fault h.2) hf
  | allowedBytes => exact breaks_allowedBytes_append more h
  | tokenStarts => exact breaks_tokenStarts_append more h
  | noLeadingDigit => exact ⟨by rw [head?_append_of_ne_nil more hne]; exact h.1, h.2⟩
  | withinLimit =>
    refine ⟨Nat.lt_of_lt_of_le h.1 ?_, h.2⟩
    rw [List.length_append]
    exact Nat.le_add_right name.length more.length

variable {more}

theorem le_index_of_keeps_allowedBytes (hkeeps : g.Keeps name .allowedBytes) {f : Finding}
    (h : g.Breaks (name ++ more) .allowedBytes f) : name.length ≤ f.index := by
  obtain ⟨-, ⟨b, hb, hbad⟩, -⟩ := h
  apply Nat.le_of_not_lt
  intro hlt
  rw [List.getElem?_append_left hlt] at hb
  have hallows := hkeeps b (List.mem_of_getElem? hb)
  rw [hbad] at hallows
  cases hallows

theorem length_lt_index_of_keeps_tokenStarts (hstarts : g.Keeps name .tokenStarts)
    (hlast : g.Keeps name .noTrailingSlash) {f : Finding}
    (h : g.Breaks (name ++ more) .tokenStarts f) : name.length < f.index := by
  obtain ⟨i, hi, hindex, -⟩ := h
  rw [hindex]
  apply Nat.lt_succ_of_le
  apply Nat.le_of_not_lt
  intro hlt
  rcases Nat.lt_or_eq_of_le (Nat.succ_le_of_lt hlt) with hlt' | hlength
  · rw [faultAfter?_append_of_lt hlt', hstarts i] at hi
    cases hi
  · have hslash := ((faultAfter?_eq_some_iff _ i f.fault).mp hi).1
    rw [List.getElem?_append_left hlt] at hslash
    apply hlast
    rw [List.getLast?_eq_getElem?, ← hlength]
    exact hslash

variable (g name more)

/-- The longer name breaks a rule that the name keeps, before the rule of the finding `f`. -/
def FoundBehind : List Rule → Finding → Finding → Prop
  | [], _, _ => False
  | r :: rest, f, f' => g.Keeps name r ∧
      (g.FirstBroken name rest f ∧ g.Breaks (name ++ more) r f' ∨ FoundBehind rest f f')

variable {g name}

theorem exists_firstBroken_append (hne : name ≠ []) {rules : List Rule} {f : Finding}
    (hf : f.fault ≠ .trailingSlash) (h : g.FirstBroken name rules f) :
    ∃ f', g.FirstBroken (name ++ more) rules f' ∧
      (f' = f ∨ g.FoundBehind name more rules f f') := by
  induction rules with
  | nil => exact h.elim
  | cons r rest ih =>
    rcases h with h | ⟨hkeeps, h⟩
    · exact ⟨f, Or.inl (breaks_append more hne hf h), Or.inl rfl⟩
    · cases hbreach : g.breach? (name ++ more) r with
      | none =>
        obtain ⟨f', hf', hfound⟩ := ih h
        have hkeeps' := (g.breach?_eq_none_iff _ r).mp hbreach
        exact ⟨f', Or.inr ⟨hkeeps', hf'⟩, hfound.imp_right fun hbehind => ⟨hkeeps, Or.inr hbehind⟩⟩
      | some f' =>
        have hbreaks := (g.breach?_eq_some_iff _ r f').mp hbreach
        exact ⟨f', Or.inl hbreaks, Or.inr ⟨hkeeps, Or.inl ⟨h, hbreaks⟩⟩⟩

theorem not_isRoot_append (hne : name ≠ []) (h : ¬ g.IsRoot name) : ¬ g.IsRoot (name ++ more) := by
  rintro ⟨hroot, hname⟩
  rcases List.append_eq_singleton_iff.mp hname with ⟨hnil, -⟩ | ⟨hslash, -⟩
  · exact hne hnil
  · exact h ⟨hroot, hslash⟩

theorem exists_check_append (hne : name ≠ []) {f : Finding} (hf : f.fault ≠ .trailingSlash)
    (h : g.check name = some f) : ∃ f', g.check (name ++ more) = some f' ∧
      (f' = f ∨ g.FoundBehind name more g.shape.rules f f') := by
  obtain ⟨hroot, hfirst⟩ := (g.check_eq_some_iff_firstBroken name f).mp h
  obtain ⟨f', hf', hfound⟩ := exists_firstBroken_append more hne hf hfirst
  exact ⟨f', (g.check_eq_some_iff_firstBroken _ f').mpr ⟨not_isRoot_append more hne hroot, hf'⟩,
    hfound⟩

end Grammar

/-- Something is wrong with the name that no byte behind it can mend. -/
def Outcome.IsLasting {s : Shape} : Outcome s → Prop
  | .valid | .emptyName | .trailingSlash => False
  | .relative | .unallowedByte | .repeatedSlash | .numericToken | .leadingDigit | .tooLong => True

/-- What the fault `o` at `i` of a name becomes when more bytes follow. The first six stay as they
are; each of the others gives way to a fault of the bytes behind the name. -/
inductive Becomes (limit : Nat) (name more : Bytes) :
    {s : Shape} → Outcome s → Nat → Outcome s → Nat → Prop
  | relative : Becomes limit name more Outcome.relative 0 Outcome.relative 0
  | unallowedByte {s : Shape} (i : Nat) : Becomes limit name more
      (Outcome.unallowedByte (s := s)) i (Outcome.unallowedByte (s := s)) i
  | repeatedSlash (i : Nat) :
      Becomes limit name more Outcome.repeatedSlash i Outcome.repeatedSlash i
  | numericToken (i : Nat) :
      Becomes limit name more Outcome.numericToken i Outcome.numericToken i
  | leadingDigit (i : Nat) :
      Becomes limit name more Outcome.leadingDigit i Outcome.leadingDigit i
  | tooLong {s : Shape} : Becomes limit name more
      (Outcome.tooLong (s := s)) (limit - 1) (Outcome.tooLong (s := s)) (limit - 1)
  | endsWithSlash {o : Outcome .path} {i : Nat} (h : o ≠ .relative) :
      Becomes limit name more o i Outcome.trailingSlash ((name ++ more).length - 1)
  | addsByte {s : Shape} {o : Outcome s} {i j : Nat} (h : o.IsOfAllowedBytes)
      (hj : name.length ≤ j) : Becomes limit name more o i (Outcome.unallowedByte (s := s)) j
  | addsEmptyToken {i j : Nat} (hj : name.length < j) :
      Becomes limit name more Outcome.tooLong i Outcome.repeatedSlash j
  | addsNumericToken {i j : Nat} (hj : name.length < j) :
      Becomes limit name more Outcome.tooLong i Outcome.numericToken j

theorem Becomes.eq_tooLong {limit : Nat} {name more : Bytes} {s : Shape} {o : Outcome s} {i j : Nat}
    (h : Becomes limit name more o i .tooLong j) : o = .tooLong := by
  cases h
  rfl

namespace Outcome

theorem ofFault_ne_relative {f : Fault} (h : f.rule ≠ .absolute) : ofFault .path f ≠ .relative := by
  cases f with
  | relative => exact absurd rfl h
  | _ => simp [ofFault]

theorem isOfAllowedBytes_ofFault_path {f : Fault} (h : f.rule ∈ [.tokenStarts, .withinLimit]) :
    (ofFault .path f).IsOfAllowedBytes := by
  cases f <;> simp_all [ofFault, Fault.rule, IsOfAllowedBytes]

theorem isOfAllowedBytes_ofFault_token {f : Fault} (h : f.rule ∈ [.noLeadingDigit, .withinLimit]) :
    (ofFault .token f).IsOfAllowedBytes := by
  cases f <;> simp_all [ofFault, Fault.rule, IsOfAllowedBytes]

end Outcome

namespace Grammar

variable {g : Grammar} {name more : Bytes} {f f' : Finding}

theorem becomes_refl (s : Shape) (hne : name ≠ []) (hf : f.fault ≠ .trailingSlash)
    (h : g.Breaks name f.fault.rule f) : Becomes g.maxLength name more
      (.ofFault s f.fault) f.index (.ofFault s f.fault) f.index := by
  obtain ⟨fault, index⟩ := f
  cases fault with
  | emptyName => exact absurd h.1 hne
  | relative =>
    obtain rfl : index = 0 := (Finding.mk.inj h.2).2
    cases s with
    | path => exact .relative
    | token => exact .unallowedByte 0
  | trailingSlash => exact absurd rfl hf
  | unallowedByte => cases s <;> exact .unallowedByte index
  | repeatedSlash =>
    cases s with
    | path => exact .repeatedSlash index
    | token => exact .unallowedByte index
  | numericToken =>
    cases s with
    | path => exact .numericToken index
    | token => exact .leadingDigit index
  | leadingDigit =>
    cases s with
    | path => exact .numericToken index
    | token => exact .leadingDigit index
  | tooLong =>
    obtain rfl : index = g.maxLength - 1 := (Finding.mk.inj h.2).2
    cases s <;> exact .tooLong

theorem becomes_of_foundBehind_path (hne : name ≠ [])
    (h : g.FoundBehind name more Shape.path.rules f f') : Becomes g.maxLength name more
      (.ofFault .path f.fault) f.index (.ofFault .path f'.fault) f'.index := by
  obtain ⟨fault', index'⟩ := f'
  -- the rules in their order, each broken by the longer name or else kept by both
  rcases h with ⟨-, ⟨-, h⟩ | ⟨hhead, ⟨-, h⟩ | ⟨hlast, ⟨hfirst, h⟩ | ⟨hallowed, ⟨hfirst, h⟩ |
    ⟨hstarts, ⟨hfirst, h⟩ | ⟨-, ⟨hfirst, -⟩ | h⟩⟩⟩⟩⟩⟩
  · exact absurd (List.append_eq_nil_iff.mp h.1).1 hne
  · rw [Keeps, ← head?_append_of_ne_nil more hne] at hhead
    exact absurd hhead h.1
  · obtain ⟨rfl, rfl⟩ := Finding.mk.inj h.2
    refine .endsWithSlash (Outcome.ofFault_ne_relative fun hrule => ?_)
    have hmem := g.rule_fault_mem_of_firstBroken name hfirst
    rw [hrule] at hmem
    exact absurd hmem (by decide)
  · obtain ⟨rfl, -⟩ := id h
    have hmem := g.rule_fault_mem_of_firstBroken name hfirst
    exact .addsByte (Outcome.isOfAllowedBytes_ofFault_path hmem)
      (le_index_of_keeps_allowedBytes hallowed h)
  · rcases hfirst with ⟨-, rfl⟩ | ⟨-, h⟩
    · have hlt := length_lt_index_of_keeps_tokenStarts hstarts hlast h
      obtain ⟨i, hi, -⟩ := h
      rcases ((faultAfter?_eq_some_iff _ i fault').mp hi).2 with ⟨-, rfl⟩ | ⟨-, rfl⟩
      · exact .addsEmptyToken hlt
      · exact .addsNumericToken hlt
    · exact h.elim
  · exact hfirst.elim
  · exact h.elim

theorem becomes_of_foundBehind_token (hne : name ≠ [])
    (h : g.FoundBehind name more Shape.token.rules f f') : Becomes g.maxLength name more
      (.ofFault .token f.fault) f.index (.ofFault .token f'.fault) f'.index := by
  obtain ⟨fault', index'⟩ := f'
  rcases h with ⟨-, ⟨-, h⟩ | ⟨hallowed, ⟨hfirst, h⟩ | ⟨hdigit, ⟨-, h⟩ | ⟨-, ⟨hfirst, -⟩ | h⟩⟩⟩⟩
  · exact absurd (List.append_eq_nil_iff.mp h.1).1 hne
  · obtain ⟨rfl, -⟩ := id h
    have hmem := g.rule_fault_mem_of_firstBroken name hfirst
    exact .addsByte (Outcome.isOfAllowedBytes_ofFault_token hmem)
      (le_index_of_keeps_allowedBytes hallowed h)
  · obtain ⟨⟨b, hb, hbad⟩, -⟩ := h
    rw [head?_append_of_ne_nil more hne] at hb
    exact absurd hbad (hdigit b hb)
  · exact hfirst.elim
  · exact h.elim

theorem exists_becomes (more : Bytes) (hne : name ≠ []) (hf : f.fault ≠ .trailingSlash)
    (h : g.check name = some f) : ∃ f', g.check (name ++ more) = some f' ∧
      Becomes g.maxLength name more (.ofFault g.shape f.fault) f.index
        (.ofFault g.shape f'.fault) f'.index := by
  obtain ⟨f', hf', hfound⟩ := exists_check_append more hne hf h
  refine ⟨f', hf', ?_⟩
  rcases hfound with rfl | hbehind
  · exact becomes_refl g.shape hne hf (g.breaks_of_check name h)
  · cases hs : g.shape with
    | path => exact becomes_of_foundBehind_path hne (hs ▸ hbehind)
    | token => exact becomes_of_foundBehind_token hne (hs ▸ hbehind)

theorem ne_nil_of_isLasting (h : g.check name = some f)
    (hlasting : (Outcome.ofFault g.shape f.fault).IsLasting) : name ≠ [] := by
  rintro rfl
  obtain rfl := Option.some.inj (g.check_nil.symm.trans h)
  cases hs : g.shape with
  | path =>
    rw [hs] at hlasting
    exact hlasting
  | token =>
    rw [hs] at hlasting
    exact hlasting

theorem fault_ne_trailingSlash_of_isLasting (h : g.check name = some f)
    (hlasting : (Outcome.ofFault g.shape f.fault).IsLasting) : f.fault ≠ .trailingSlash := by
  intro hfault
  have hmem := g.rule_fault_mem_of_check name h
  rw [hfault] at hmem hlasting
  cases hs : g.shape with
  | path =>
    rw [hs] at hlasting
    exact hlasting
  | token =>
    rw [hs] at hmem
    exact absurd hmem (by decide)

end Grammar

namespace Kind

variable (k : Kind) {name : Bytes} (more : Bytes)

theorem exists_validate_append {o : Outcome k.shape} {i : Nat} (h : k.validate name = ⟨o, some i⟩)
    (hlasting : o.IsLasting) : ∃ o' j, k.validate (name ++ more) = ⟨o', some j⟩ ∧
      Becomes k.grammar.maxLength name more o i o' j := by
  obtain ⟨f, hf, rfl, rfl⟩ := (k.validate_eq_some_iff_check name o i).mp h
  have hne := Grammar.ne_nil_of_isLasting hf hlasting
  have hfault := Grammar.fault_ne_trailingSlash_of_isLasting hf hlasting
  obtain ⟨f', hf', hbecomes⟩ := Grammar.exists_becomes more hne hfault hf
  exact ⟨_, f'.index, (k.validate_eq_some_iff_check _ _ _).mpr ⟨f', hf', rfl, rfl⟩, hbecomes⟩

theorem exists_index_of_isLasting (h : (k.validate name).outcome.IsLasting) :
    ∃ i, k.validate name = ⟨(k.validate name).outcome, some i⟩ := by
  cases hindex : (k.validate name).index with
  | some i => exact ⟨i, by rw [← hindex]⟩
  | none =>
    have hvalid := (Outcome.isValid_iff _).mp ((k.index_validate_eq_none_iff name).mp hindex)
    rw [hvalid] at h
    exact h.elim

end Kind

/-- Whatever bytes follow, a fault of a name stays or gives way to one of theirs, unless the name is
empty or ends with a slash, where it should not. So no bytes make the name valid, and if it is wrong
in more than its length, none make it wrong in nothing but its length. -/
theorem faults_survive_extension (k : Kind) (name more : Bytes) :
    (∀ o i, k.validate name = ⟨o, some i⟩ → o.IsLasting →
      ∃ o' j, k.validate (name ++ more) = ⟨o', some j⟩ ∧
        Becomes k.grammar.maxLength name more o i o' j) ∧
    ((k.validate name).outcome.IsLasting → ¬ (k.validate (name ++ more)).isValid ∧
      ((k.validate name).outcome ≠ .tooLong →
        ¬ (k.validate (name ++ more)).isValidIgnoringLength)) := by
  refine ⟨fun o i h hlasting => k.exists_validate_append more h hlasting, fun hlasting => ?_⟩
  obtain ⟨i, hi⟩ := k.exists_index_of_isLasting hlasting
  obtain ⟨o', j, hv, hbecomes⟩ := k.exists_validate_append more hi hlasting
  have hvalid : ¬ (k.validate (name ++ more)).isValid := by
    rw [← k.index_validate_eq_none_iff, hv]
    exact Option.some_ne_none j
  refine ⟨hvalid, fun hne => ?_⟩
  rw [Validation.isValidIgnoringLength, Bool.or_eq_true, not_or]
  refine ⟨hvalid, fun htooLong => hne ?_⟩
  obtain rfl : o' = .tooLong := by
    rwa [hv, Validation.isTooLong, Outcome.isTooLong_iff] at htooLong
  exact hbecomes.eq_tooLong

/-- The empty token of `/a//b` gives way to a blank behind it. -/
theorem blank_behind_an_empty_token :
    let name : Bytes := [0x2f, 0x61, 0x2f, 0x2f, 0x62]
    let more : Bytes := [0x20, 0x63]
    Kind.topicName.validate name = ⟨.repeatedSlash, some 3⟩ ∧
    Kind.topicName.validate (name ++ more) = ⟨.unallowedByte, some 5⟩ ∧
    (∃ o j, Kind.topicName.validate (name ++ more) = ⟨o, some j⟩ ∧
      Becomes 256 name more .repeatedSlash 3 o j) ∧
    ¬ (Kind.topicName.validate (name ++ more)).isValidIgnoringLength := by
  intro name more
  obtain ⟨hbecomes, hrejected⟩ := faults_survive_extension .topicName name more
  have hname : Kind.topicName.validate name = ⟨.repeatedSlash, some 3⟩ := by decide
  have hlasting : (Kind.topicName.validate name).outcome.IsLasting := by
    rw [hname]
    exact trivial
  exact ⟨hname, by decide, hbecomes _ _ hname trivial, (hrejected hlasting).2 (by decide)⟩

end RosNames
