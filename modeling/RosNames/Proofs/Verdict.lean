import RosNames.Validation
import RosNames.Proofs.RuleOrder

/-!
# From findings to validations

A flaw decides about a name in every grammar, and a name without one is valid or too long as its
length and the limit have it. No fault is read as a valid name and only one as too long, so outcome
and index of a validation agree: both say that the name is valid, or neither does.
-/

namespace RosNames

namespace Outcome

theorem ofFault_ne_valid (s : Shape) (f : Fault) : ofFault s f ≠ .valid := by
  cases s <;> cases f <;> simp [ofFault]

theorem ofFault_eq_tooLong_iff (s : Shape) (f : Fault) : ofFault s f = .tooLong ↔ f = .tooLong := by
  cases s <;> cases f <;> simp [ofFault]

theorem ofFault_ne_tooLong_of_flaw? {g : Grammar} {name : Bytes} {f : Finding}
    (h : g.flaw? name = some f) : ofFault g.shape f.fault ≠ .tooLong := by
  rw [Ne, ofFault_eq_tooLong_iff]
  exact g.flaw?_fault_ne_tooLong name h

end Outcome

namespace Kind

variable (k : Kind) (name : Bytes)

theorem validate_eq_some_iff_check (o : Outcome k.shape) (i : Nat) : k.validate name = ⟨o, some i⟩ ↔
    ∃ f, k.grammar.check name = some f ∧ o = .ofFault k.shape f.fault ∧ i = f.index := by
  rw [validate]
  cases k.grammar.check name with
  | none => simp
  | some f => simp [eq_comm]

theorem validate_of_flaw? {f : Finding} (h : k.grammar.flaw? name = some f) :
    k.validate name = ⟨.ofFault k.shape f.fault, some f.index⟩ := by
  have hcheck := (k.grammar.check_eq_some_iff name f).mpr (Or.inl h)
  rw [validate, hcheck]

theorem validate_of_long (h : k.grammar.flaw? name = none)
    (hlong : k.grammar.maxLength < name.length) :
    k.validate name = ⟨.tooLong, some (k.grammar.maxLength - 1)⟩ := by
  have hcheck := (k.grammar.check_eq_some_iff name _).mpr (Or.inr ⟨h, hlong, rfl⟩)
  have htooLong := (Outcome.ofFault_eq_tooLong_iff k.shape .tooLong).mpr rfl
  simp only [validate, hcheck, htooLong]

theorem validate_of_short (h : k.grammar.flaw? name = none)
    (hshort : name.length ≤ k.grammar.maxLength) : k.validate name = ⟨.valid, none⟩ := by
  have hcheck := (k.grammar.check_eq_none_iff name).mpr ⟨h, hshort⟩
  rw [validate, hcheck]

/-- The three ways in which a validation comes about. -/
theorem validate_cases :
    (∃ f, k.grammar.flaw? name = some f ∧
      k.validate name = ⟨.ofFault k.shape f.fault, some f.index⟩) ∨
    (k.grammar.flaw? name = none ∧ k.grammar.maxLength < name.length ∧
      k.validate name = ⟨.tooLong, some (k.grammar.maxLength - 1)⟩) ∨
    (k.grammar.flaw? name = none ∧ name.length ≤ k.grammar.maxLength ∧
      k.validate name = ⟨.valid, none⟩) := by
  cases h : k.grammar.flaw? name with
  | some f => exact Or.inl ⟨f, rfl, k.validate_of_flaw? name h⟩
  | none =>
    rcases Nat.lt_or_ge k.grammar.maxLength name.length with hlong | hshort
    · exact Or.inr (Or.inl ⟨rfl, hlong, k.validate_of_long name h hlong⟩)
    · exact Or.inr (Or.inr ⟨rfl, hshort, k.validate_of_short name h hshort⟩)

theorem isValid_validate_iff : (k.validate name).isValid ↔
    k.grammar.flaw? name = none ∧ name.length ≤ k.grammar.maxLength := by
  rw [Validation.isValid, Outcome.isValid_iff]
  rcases k.validate_cases name with ⟨f, h, hv⟩ | ⟨h, hlong, hv⟩ | ⟨h, hshort, hv⟩
  · simp [hv, h, Outcome.ofFault_ne_valid]
  · simp [hv, hlong]
  · simp [hv, h, hshort]

theorem isTooLong_validate_iff : (k.validate name).isTooLong ↔
    k.grammar.flaw? name = none ∧ k.grammar.maxLength < name.length := by
  rw [Validation.isTooLong, Outcome.isTooLong_iff]
  rcases k.validate_cases name with ⟨f, h, hv⟩ | ⟨h, hlong, hv⟩ | ⟨h, hshort, hv⟩
  · simp [hv, h, Outcome.ofFault_ne_tooLong_of_flaw? h]
  · simp [hv, h, hlong]
  · simp [hv, hshort]

theorem isValidIgnoringLength_validate_iff :
    (k.validate name).isValidIgnoringLength ↔ k.grammar.flaw? name = none := by
  rw [Validation.isValidIgnoringLength, Bool.or_eq_true, isValid_validate_iff,
    isTooLong_validate_iff, ← and_or_left]
  exact and_iff_left (Nat.lt_or_ge k.grammar.maxLength name.length).symm

theorem index_validate_eq_none_iff :
    (k.validate name).index = none ↔ (k.validate name).isValid := by
  rw [isValid_validate_iff]
  rcases k.validate_cases name with ⟨f, h, hv⟩ | ⟨h, hlong, hv⟩ | ⟨h, hshort, hv⟩
  · simp [hv, h]
  · simp [hv, hlong]
  · simp [hv, h, hshort]

end Kind
end RosNames
