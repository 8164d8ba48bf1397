import Mathlib.Logic.ExistsUnique
import RosNames.Proofs.TokenPieces

/-!
# Outcomes tell faults apart

Some faults have no outcome of their own in a shape and share that of another fault. They are just
the faults that the rules of the shape never find. So the fault that decides about a name can be
read back from the outcome, together with the index the whole finding, and no fault passes for a
valid name.
-/

namespace RosNames

/-- The faults without an outcome of their own. -/
def Shape.foreignFaults : Shape → List Fault
  | .path => [.leadingDigit]
  | .token => [.relative, .trailingSlash, .repeatedSlash, .numericToken]

theorem Shape.rule_mem_rules_iff (s : Shape) (f : Fault) :
    f.rule ∈ s.rules ↔ f ∉ s.foreignFaults := by
  cases s <;> cases f <;> decide

namespace Outcome

def fault? : {s : Shape} → Outcome s → Option Fault
  | _, valid => none
  | _, emptyName => some .emptyName
  | _, relative => some .relative
  | _, trailingSlash => some .trailingSlash
  | _, unallowedByte => some .unallowedByte
  | _, repeatedSlash => some .repeatedSlash
  | _, numericToken => some .numericToken
  | _, leadingDigit => some .leadingDigit
  | _, tooLong => some .tooLong

theorem fault?_ofFault_iff (s : Shape) (f : Fault) :
    (ofFault s f).fault? = some f ↔ f ∉ s.foreignFaults := by
  cases s <;> cases f <;> decide

theorem ofFault_of_fault? {s : Shape} {o : Outcome s} {f : Fault} (h : o.fault? = some f) :
    ofFault s f = o := by
  cases s <;> cases o <;> cases h <;> rfl

theorem fault?_eq_none_iff {s : Shape} (o : Outcome s) : o.fault? = none ↔ o = valid := by
  cases o <;> simp [fault?]

end Outcome

/-- The finding that a validation comes from. -/
def Validation.finding? {k : Kind} (v : Validation k) : Option Finding :=
  v.outcome.fault?.bind fun fault => v.index.map fun index => ⟨fault, index⟩

theorem Grammar.fault_notMem_foreignFaults (g : Grammar) {name : Bytes} {f : Finding}
    (h : g.check name = some f) : f.fault ∉ g.shape.foreignFaults :=
  (g.shape.rule_mem_rules_iff f.fault).mp (g.rule_fault_mem_of_check name h)

theorem isToken_replicate (n : Nat) : IsToken (List.replicate (n + 1) 0x61) := by
  refine ⟨0x61, List.replicate n 0x61, rfl, by decide, ?_⟩
  intro b hb
  rw [List.eq_of_mem_replicate hb]
  decide

namespace Kind

variable (k : Kind) (name : Bytes)

theorem outcome_validate : (k.validate name).outcome =
    ((k.grammar.check name).map Finding.fault).elim .valid (Outcome.ofFault k.shape) := by
  rw [validate]
  cases k.grammar.check name <;> rfl

theorem fault?_validate :
    (k.validate name).outcome.fault? = (k.grammar.check name).map Finding.fault := by
  rw [validate]
  cases h : k.grammar.check name with
  | none => rfl
  | some f =>
    exact (Outcome.fault?_ofFault_iff k.shape f.fault).mpr (k.grammar.fault_notMem_foreignFaults h)

theorem finding?_validate : (k.validate name).finding? = k.grammar.check name := by
  rw [Validation.finding?, fault?_validate, validate]
  cases k.grammar.check name <;> rfl

theorem outcome_validate_eq_iff (a b : Bytes) :
    (k.validate a).outcome = (k.validate b).outcome ↔
      (k.grammar.check a).map Finding.fault = (k.grammar.check b).map Finding.fault := by
  constructor
  · intro h
    rw [← fault?_validate, ← fault?_validate, h]
  · intro h
    rw [outcome_validate, outcome_validate, h]

theorem validate_eq_iff (a b : Bytes) :
    k.validate a = k.validate b ↔ k.grammar.check a = k.grammar.check b := by
  constructor
  · intro h
    rw [← finding?_validate, ← finding?_validate, h]
  · intro h
    rw [validate, validate, h]

theorem exists_long_of_flaw?_eq_none (n : Nat) :
    ∃ name, k.grammar.flaw? name = none ∧ n < name.length := by
  have htoken : IsToken (List.replicate (n + 1) 0x61) := isToken_replicate n
  have hlong : n < (List.replicate (n + 1) (0x61 : UInt8)).length := by simp
  have hlonger := Nat.lt_succ_of_lt hlong
  cases k with
  | topicName => exact ⟨_, (topicGrammar_flaw?_eq_none_iff _).mpr htoken.isPath, hlonger⟩
  | namespaceName =>
    exact ⟨_, (namespaceGrammar_flaw?_eq_none_iff _).mpr (Or.inr htoken.isPath), hlonger⟩
  | nodeName => exact ⟨_, (NodeName.flaw?_eq_none_iff_isToken _).mpr htoken, hlong⟩

/-- Every other fault decides about some name. -/
theorem exists_check_of_notMem_foreignFaults {f : Fault} (h : f ∉ k.shape.foreignFaults) :
    ∃ name i, k.grammar.check name = some ⟨f, i⟩ := by
  cases f with
  | emptyName => exact ⟨[], 0, k.grammar.check_nil⟩
  | relative =>
    refine ⟨[0x61], 0, ?_⟩
    revert h
    cases k <;> decide
  | trailingSlash =>
    refine ⟨[0x2f, 0x61, 0x2f], 2, ?_⟩
    revert h
    cases k <;> decide
  | unallowedByte =>
    cases k with
    | topicName => exact ⟨[0x2f, 0x20], 1, by decide⟩
    | namespaceName => exact ⟨[0x2f, 0x20], 1, by decide⟩
    | nodeName => exact ⟨[0x20], 0, by decide⟩
  | repeatedSlash =>
    refine ⟨[0x2f, 0x2f, 0x61], 1, ?_⟩
    revert h
    cases k <;> decide
  | numericToken =>
    refine ⟨[0x2f, 0x31], 1, ?_⟩
    revert h
    cases k <;> decide
  | leadingDigit =>
    refine ⟨[0x31], 0, ?_⟩
    revert h
    cases k <;> decide
  | tooLong =>
    obtain ⟨name, hflaw, hlong⟩ := k.exists_long_of_flaw?_eq_none k.grammar.maxLength
    exact ⟨name, _, (k.grammar.check_eq_some_iff name _).mpr (Or.inr ⟨hflaw, hlong, rfl⟩)⟩

theorem exists_check_iff (f : Fault) :
    (∃ name i, k.grammar.check name = some ⟨f, i⟩) ↔ f ∉ k.shape.foreignFaults := by
  constructor
  · rintro ⟨name, i, h⟩
    exact k.grammar.fault_notMem_foreignFaults h
  · exact k.exists_check_of_notMem_foreignFaults

theorem mem_foreignFaults_iff (f : Fault) :
    f ∈ k.shape.foreignFaults ↔ ∀ name i, k.grammar.check name ≠ some ⟨f, i⟩ := by
  simpa using (not_congr (k.exists_check_iff f)).symm

theorem existsUnique_fault_iff (o : Outcome k.shape) :
    (∃! f, Outcome.ofFault k.shape f = o ∧ ∃ name i, k.grammar.check name = some ⟨f, i⟩) ↔
      o ≠ .valid := by
  simp only [exists_check_iff, ← Outcome.fault?_ofFault_iff]
  constructor
  · rintro ⟨f, ⟨rfl, -⟩, -⟩
    exact Outcome.ofFault_ne_valid k.shape f
  · intro ho
    obtain ⟨f, hf⟩ := Option.ne_none_iff_exists'.mp (mt (Outcome.fault?_eq_none_iff o).mp ho)
    have hof := Outcome.ofFault_of_fault? hf
    refine ⟨f, ⟨hof, by rwa [hof]⟩, ?_⟩
    rintro f' ⟨hof', hf'⟩
    rw [hof', hf] at hf'
    exact (Option.some.inj hf').symm

end Kind

/-- What is found about a name survives in its validation. The faults that would be lost there are
never found, and each outcome but that of a valid name stands for one fault that is. -/
theorem outcomes_tell_faults_apart (k : Kind) :
    (∀ f, f ∈ k.shape.foreignFaults ↔ ∀ name i, k.grammar.check name ≠ some ⟨f, i⟩) ∧
    (∀ o, (∃! f, Outcome.ofFault k.shape f = o ∧ ∃ name i, k.grammar.check name = some ⟨f, i⟩) ↔
      o ≠ .valid) ∧
    (∀ a b, (k.validate a).outcome = (k.validate b).outcome ↔
      (k.grammar.check a).map Finding.fault = (k.grammar.check b).map Finding.fault) ∧
    (∀ a b, k.validate a = k.validate b ↔ k.grammar.check a = k.grammar.check b) ∧
    ∀ f, Outcome.ofFault k.shape f ≠ .valid :=
  ⟨k.mem_foreignFaults_iff, k.existsUnique_fault_iff, k.outcome_validate_eq_iff,
    k.validate_eq_iff, Outcome.ofFault_ne_valid k.shape⟩

end RosNames
