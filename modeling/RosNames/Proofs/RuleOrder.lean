import RosNames.Proofs.TokenStart

/-!
# The first broken rule decides

`Keeps` and `Breaks` say of each rule, without the scan that looks for it, when a name is within the
rule and where it first is not. The finding about a name is that of the first rule it breaks. A
finding of any rule but the last, the limit on the length, is a flaw; flaws do not depend on the
limit, and the limit has a say only about names without a flaw.
-/

namespace RosNames

def Shape.flawRules : Shape → List Rule
  | .path => [.nonempty, .absolute, .noTrailingSlash, .allowedBytes, .tokenStarts]
  | .token => [.nonempty, .allowedBytes, .noLeadingDigit]

theorem Shape.rules_eq (s : Shape) : s.rules = s.flawRules ++ [.withinLimit] := by
  cases s <;> rfl

theorem Shape.withinLimit_notMem_flawRules (s : Shape) : .withinLimit ∉ s.flawRules := by
  cases s <;> decide

theorem Shape.allowedBytes_mem_flawRules (s : Shape) : .allowedBytes ∈ s.flawRules := by
  cases s <;> decide

def Fault.rule : Fault → Rule
  | emptyName => .nonempty
  | relative => .absolute
  | trailingSlash => .noTrailingSlash
  | unallowedByte => .allowedBytes
  | repeatedSlash => .tokenStarts
  | numericToken => .tokenStarts
  | leadingDigit => .noLeadingDigit
  | tooLong => .withinLimit

namespace Grammar

variable (g : Grammar) (name : Bytes)

def IsRoot : Prop := g.allowsRoot ∧ name = [Byte.separator]

def Keeps : Rule → Prop
  | .nonempty => name ≠ []
  | .absolute => name.head? = some Byte.separator
  | .noTrailingSlash => name.getLast? ≠ some Byte.separator
  | .allowedBytes => ∀ b ∈ name, g.allows b
  | .tokenStarts => ∀ i, faultAfter? name i = none
  | .noLeadingDigit => ∀ b, name.head? = some b → ¬ Byte.IsDigit b
  | .withinLimit => name.length ≤ g.maxLength

/-- The name breaks a rule, and a finding names the least position that shows it. -/
def Breaks : Rule → Finding → Prop
  | .nonempty, f => name = [] ∧ f = ⟨.emptyName, 0⟩
  | .absolute, f => name.head? ≠ some Byte.separator ∧ f = ⟨.relative, 0⟩
  | .noTrailingSlash, f =>
    name.getLast? = some Byte.separator ∧ f = ⟨.trailingSlash, name.length - 1⟩
  | .allowedBytes, f => f.fault = .unallowedByte ∧
      (∃ b, name[f.index]? = some b ∧ g.allows b = false) ∧
      ∀ j < f.index, ∀ b, name[j]? = some b → g.allows b
  | .tokenStarts, f => ∃ i, faultAfter? name i = some f.fault ∧ f.index = i + 1 ∧
      ∀ j < i, faultAfter? name j = none
  | .noLeadingDigit, f =>
    (∃ b, name.head? = some b ∧ Byte.IsDigit b) ∧ f = ⟨.leadingDigit, 0⟩
  | .withinLimit, f => g.maxLength < name.length ∧ f = ⟨.tooLong, g.maxLength - 1⟩

/-- A finding of the first rule in a list that is broken. For a given list this unfolds to one case
for each rule, in their order, with the rules before it kept. -/
def FirstBroken : List Rule → Finding → Prop
  | [], _ => False
  | r :: rest, f => g.Breaks name r f ∨ g.Keeps name r ∧ FirstBroken rest f

/-- The fault that decides about a name whatever the limit on its length. -/
def flaw? : Option Finding :=
  if g.allowsRoot && name == [Byte.separator] then none
  else g.shape.flawRules.findSome? (g.breach? name)

theorem breach?_eq_none_iff (r : Rule) : g.breach? name r = none ↔ g.Keeps name r := by
  cases r with
  | nonempty => simp [breach?, Keeps]
  | absolute => simp [breach?, Keeps]
  | noTrailingSlash => simp [breach?, Keeps, -Bool.not_eq_true]
  | allowedBytes => simp [breach?, Keeps]
  | tokenStarts => exact tokenStartFinding?_eq_none_iff 0 name
  | noLeadingDigit => cases h : name.head? <;> simp [breach?, Keeps, h]
  | withinLimit => simp [breach?, Keeps]

theorem breach?_allowedBytes_eq_some_iff (f : Finding) :
    g.breach? name .allowedBytes = some f ↔ g.Breaks name .allowedBytes f := by
  obtain ⟨fault, index⟩ := f
  simp only [breach?, Breaks, Option.map_eq_some_iff, Finding.mk.injEq,
    List.findIdx?_eq_some_iff_getElem]
  constructor
  · rintro ⟨i, ⟨hi, hb, hleast⟩, rfl, rfl⟩
    refine ⟨rfl, ⟨name[i], List.getElem?_eq_getElem hi, by simpa using hb⟩, fun j hj b hjb => ?_⟩
    obtain ⟨hlt, rfl⟩ := List.getElem?_eq_some_iff.mp hjb
    simpa using hleast j hj
  · rintro ⟨rfl, ⟨b, hb, hbad⟩, hleast⟩
    obtain ⟨hi, rfl⟩ := List.getElem?_eq_some_iff.mp hb
    refine ⟨index, ⟨hi, by simpa using hbad, fun j hj => ?_⟩, rfl, rfl⟩
    simpa using hleast j hj name[j] (List.getElem?_eq_getElem (Nat.lt_trans hj hi))

theorem breach?_eq_some_iff (r : Rule) (f : Finding) :
    g.breach? name r = some f ↔ g.Breaks name r f := by
  cases r with
  | nonempty => simp [breach?, Breaks, eq_comm (a := f)]
  | absolute => simp [breach?, Breaks, eq_comm (a := f)]
  | noTrailingSlash => simp [breach?, Breaks, eq_comm (a := f)]
  | allowedBytes => exact g.breach?_allowedBytes_eq_some_iff name f
  | tokenStarts => simp [breach?, Breaks, tokenStartFinding?_eq_some_iff]
  | noLeadingDigit => cases h : name.head? <;> simp [breach?, Breaks, h, eq_comm (a := f)]
  | withinLimit => simp [breach?, Breaks, eq_comm (a := f)]

theorem findSome?_breach?_eq_none_iff (rules : List Rule) :
    rules.findSome? (g.breach? name) = none ↔ ∀ r ∈ rules, g.Keeps name r := by
  simp only [List.findSome?_eq_none_iff, breach?_eq_none_iff]

theorem findSome?_breach?_eq_some_iff (rules : List Rule) (f : Finding) :
    rules.findSome? (g.breach? name) = some f ↔ g.FirstBroken name rules f := by
  induction rules with
  | nil => simp [FirstBroken]
  | cons r rest ih =>
    rw [FirstBroken, ← breach?_eq_none_iff, ← breach?_eq_some_iff, ← ih, List.findSome?_cons]
    cases g.breach? name r <;> simp

theorem flaw?_eq_none_iff :
    g.flaw? name = none ↔ g.IsRoot name ∨ ∀ r ∈ g.shape.flawRules, g.Keeps name r := by
  unfold flaw? IsRoot
  by_cases h : g.allowsRoot ∧ name = [Byte.separator]
  · simp [h]
  · rw [if_neg (by simpa using h), findSome?_breach?_eq_none_iff]
    simp [h]

/-- Away from the root, the first broken rule of a list decides. -/
theorem unless_root_eq_some_iff (rules : List Rule) (f : Finding) :
    (if g.allowsRoot && name == [Byte.separator] then none
      else rules.findSome? (g.breach? name)) = some f ↔
        ¬ g.IsRoot name ∧ g.FirstBroken name rules f := by
  unfold IsRoot
  by_cases h : g.allowsRoot ∧ name = [Byte.separator]
  · simp [h]
  · rw [if_neg (by simpa using h), findSome?_breach?_eq_some_iff]
    simp [h]

theorem flaw?_eq_some_iff (f : Finding) :
    g.flaw? name = some f ↔ ¬ g.IsRoot name ∧ g.FirstBroken name g.shape.flawRules f :=
  g.unless_root_eq_some_iff name g.shape.flawRules f

theorem check_eq_some_iff_firstBroken (f : Finding) :
    g.check name = some f ↔ ¬ g.IsRoot name ∧ g.FirstBroken name g.shape.rules f :=
  g.unless_root_eq_some_iff name g.shape.rules f

theorem breach?_congr {g h : Grammar} (hsep : g.allowsSeparator = h.allowsSeparator) {r : Rule}
    (hr : r ≠ .withinLimit) : g.breach? name r = h.breach? name r := by
  cases r with
  | allowedBytes => simp only [breach?, allows, hsep]
  | withinLimit => exact absurd rfl hr
  | _ => rfl

theorem findSome?_breach?_congr {g h : Grammar} (hsep : g.allowsSeparator = h.allowsSeparator)
    {rules : List Rule} (hlimit : .withinLimit ∉ rules) :
    rules.findSome? (g.breach? name) = rules.findSome? (h.breach? name) := by
  induction rules with
  | nil => rfl
  | cons r rest ih =>
    rw [List.mem_cons, not_or] at hlimit
    rw [List.findSome?_cons, List.findSome?_cons, ih hlimit.2,
      breach?_congr name hsep (Ne.symm hlimit.1)]

theorem flaw?_congr {g h : Grammar} (hshape : g.shape = h.shape)
    (hsep : g.allowsSeparator = h.allowsSeparator) (hname : name ≠ [Byte.separator]) :
    g.flaw? name = h.flaw? name := by
  have hrules := findSome?_breach?_congr name hsep h.shape.withinLimit_notMem_flawRules
  simp only [flaw?, beq_eq_false_iff_ne.mpr hname, Bool.and_false, Bool.false_eq_true, if_false,
    hshape, hrules]

/-- A limit is positive, so it never refuses the root. -/
theorem keeps_withinLimit_of_isRoot (h : g.IsRoot name) : g.Keeps name .withinLimit := by
  rw [Keeps, h.2]
  exact g.maxLength_pos

theorem check_eq_flaw?_or : g.check name = (g.flaw? name).or (g.breach? name .withinLimit) := by
  unfold check flaw?
  by_cases h : g.allowsRoot ∧ name = [Byte.separator]
  · rw [if_pos (by simpa using h), if_pos (by simpa using h), Option.none_or, eq_comm,
      breach?_eq_none_iff]
    exact g.keeps_withinLimit_of_isRoot name h
  · rw [if_neg (by simpa using h), if_neg (by simpa using h), Shape.rules_eq,
      List.findSome?_append, List.findSome?_singleton]

theorem check_nil : g.check [] = some ⟨.emptyName, 0⟩ := by
  have hroot : ¬ g.IsRoot [] := fun h => List.cons_ne_nil _ _ h.2.symm
  rw [check_eq_some_iff_firstBroken]
  refine ⟨hroot, ?_⟩
  cases g.shape with
  | path => exact Or.inl ⟨rfl, rfl⟩
  | token => exact Or.inl ⟨rfl, rfl⟩

theorem check_eq_none_iff :
    g.check name = none ↔ g.flaw? name = none ∧ name.length ≤ g.maxLength := by
  rw [check_eq_flaw?_or, Option.or_eq_none_iff, breach?_eq_none_iff, Keeps]

theorem check_eq_some_iff (f : Finding) : g.check name = some f ↔ g.flaw? name = some f ∨
    g.flaw? name = none ∧ g.maxLength < name.length ∧ f = ⟨.tooLong, g.maxLength - 1⟩ := by
  rw [check_eq_flaw?_or, Option.or_eq_some_iff, breach?_eq_some_iff, Breaks]

theorem rule_fault_of_breaks {r : Rule} {f : Finding} (h : g.Breaks name r f) :
    f.fault.rule = r := by
  cases r with
  | nonempty => rw [h.2, Fault.rule]
  | absolute => rw [h.2, Fault.rule]
  | noTrailingSlash => rw [h.2, Fault.rule]
  | allowedBytes => rw [h.1, Fault.rule]
  | tokenStarts =>
    obtain ⟨i, hi, -⟩ := h
    rcases ((faultAfter?_eq_some_iff name i f.fault).mp hi).2 with ⟨-, hf⟩ | ⟨-, hf⟩
    · rw [hf, Fault.rule]
    · rw [hf, Fault.rule]
  | noLeadingDigit => rw [h.2, Fault.rule]
  | withinLimit => rw [h.2, Fault.rule]

theorem rule_fault_mem_of_firstBroken {rules : List Rule} {f : Finding}
    (h : g.FirstBroken name rules f) : f.fault.rule ∈ rules := by
  induction rules with
  | nil => exact h.elim
  | cons r rest ih =>
    rcases h with h | ⟨-, h⟩
    · exact List.mem_cons.mpr (Or.inl (g.rule_fault_of_breaks name h))
    · exact List.mem_cons_of_mem r (ih h)

theorem breaks_of_firstBroken {rules : List Rule} {f : Finding}
    (h : g.FirstBroken name rules f) : g.Breaks name f.fault.rule f := by
  induction rules with
  | nil => exact h.elim
  | cons r rest ih =>
    rcases h with h | ⟨-, h⟩
    · rwa [g.rule_fault_of_breaks name h]
    · exact ih h

theorem rule_ne_withinLimit_of_flaw? {f : Finding} (h : g.flaw? name = some f) :
    f.fault.rule ≠ .withinLimit := by
  have hmem := g.rule_fault_mem_of_firstBroken name ((g.flaw?_eq_some_iff name f).mp h).2
  intro hrule
  rw [hrule] at hmem
  exact g.shape.withinLimit_notMem_flawRules hmem

theorem flaw?_fault_ne_tooLong {f : Finding} (h : g.flaw? name = some f) : f.fault ≠ .tooLong :=
  fun htooLong => g.rule_ne_withinLimit_of_flaw? name h (congrArg Fault.rule htooLong)

theorem rule_fault_mem_of_check {f : Finding} (h : g.check name = some f) :
    f.fault.rule ∈ g.shape.rules :=
  g.rule_fault_mem_of_firstBroken name ((g.check_eq_some_iff_firstBroken name f).mp h).2

theorem breaks_of_check {f : Finding} (h : g.check name = some f) :
    g.Breaks name f.fault.rule f :=
  g.breaks_of_firstBroken name ((g.check_eq_some_iff_firstBroken name f).mp h).2

end Grammar
end RosNames
