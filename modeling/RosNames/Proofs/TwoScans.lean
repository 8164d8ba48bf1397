import RosNames.Proofs.TopicFault

/-!
# One scan for two faults

The rule on how tokens start looks for two things in one pass, a slash after a slash and a digit
after a slash. Two passes that look for one thing each come to the same: they never stop at the same
position, and the one that stops first says what the single pass finds. This is so for every name,
also for one that breaks the rules before.
-/

namespace RosNames

open TopicName (StartsBadly forall_not_startsBadly_iff)

/-- The byte at `i` is in the class `P` and comes right after a slash. -/
def FollowsSlash (P : UInt8 → Prop) (name : Bytes) (i : Nat) : Prop :=
  1 ≤ i ∧ name[i - 1]? = some Byte.separator ∧ ∃ b, name[i]? = some b ∧ P b

/-- The least position of its kind, absent if there is no such position. -/
def IsFirst (P : Nat → Prop) : Option Nat → Prop
  | some i => P i ∧ ∀ j < i, ¬ P j
  | none => ∀ i, ¬ P i

/-- A pass over the neighbouring pairs for one thing alone: where a byte of the class first follows
a slash. -/
def firstAfterSlash? (P : UInt8 → Prop) [DecidablePred P] (name : Bytes) : Option Nat :=
  ((name.zip name.tail).findIdx? fun pair => pair.1 = Byte.separator ∧ P pair.2).map (· + 1)

namespace IsFirst

variable {P Q S : Nat → Prop} {r d : Option Nat}

theorem unique (hr : IsFirst P r) (hd : IsFirst P d) : r = d := by
  cases r with
  | none =>
    cases d with
    | none => rfl
    | some j => exact absurd hd.1 (hr j)
  | some i =>
    cases d with
    | none => exact absurd hr.1 (hd i)
    | some j =>
      have hij : ¬ i < j := fun hlt => hd.2 i hlt hr.1
      have hji : ¬ j < i := fun hlt => hr.2 j hlt hd.1
      exact congrArg some (by omega)

theorem iff_eq (hr : IsFirst P r) (o : Option Nat) : IsFirst P o ↔ r = o := by
  constructor
  · exact hr.unique
  · rintro rfl
    exact hr

theorem eq_none_iff (hr : IsFirst P r) : r = none ↔ ∀ i, ¬ P i := by
  cases r with
  | none => exact iff_of_true rfl hr
  | some i => exact iff_of_false (Option.some_ne_none i) fun h => h i hr.1

theorem map_succ (hzero : ¬ P 0) (h : IsFirst (fun i => P (i + 1)) r) :
    IsFirst P (r.map (· + 1)) := by
  cases r with
  | none =>
    intro i
    cases i with
    | zero => exact hzero
    | succ i => exact h i
  | some i =>
    refine ⟨h.1, fun j hj => ?_⟩
    cases j with
    | zero => exact hzero
    | succ j => exact h.2 j (Nat.lt_of_succ_lt_succ hj)

theorem ne_some_of_disjoint (hr : IsFirst P r) (hd : IsFirst Q d) (h : ∀ i, P i → ¬ Q i) {i : Nat}
    (hi : r = some i) : d ≠ some i := by
  rintro rfl
  subst hi
  exact h i hr.1 hd.1

/-- A position with one of two properties is the least with either if it is the first with the one
and comes before the first with the other. -/
theorem least_of_either_iff (hr : IsFirst P r) (hd : IsFirst Q d) (h : ∀ i, P i → ¬ Q i)
    (hS : ∀ i, S i ↔ P i ∨ Q i) (i : Nat) :
    (P i ∧ ∀ j < i, ¬ S j) ↔ r = some i ∧ ∀ j, d = some j → i < j := by
  constructor
  · rintro ⟨hi, hbefore⟩
    have hfirst : IsFirst P (some i) :=
      ⟨hi, fun j hj hP => hbefore j hj ((hS j).mpr (Or.inl hP))⟩
    refine ⟨hr.unique hfirst, ?_⟩
    rintro j rfl
    have hnot : ¬ j < i := fun hlt => hbefore j hlt ((hS j).mpr (Or.inr hd.1))
    -- no position has both properties, so the two are not level
    have hne : i ≠ j := by
      rintro rfl
      exact h i hi hd.1
    omega
  · rintro ⟨rfl, hlt⟩
    refine ⟨hr.1, fun j hj hj' => ?_⟩
    rcases (hS j).mp hj' with hP | hQ
    · exact hr.2 j hj hP
    · cases d with
      | none => exact hd j hQ
      | some l => exact hd.2 j (Nat.lt_trans hj (hlt l rfl)) hQ

end IsFirst

theorem isFirst_findIdx? {α : Type} (q : α → Bool) (xs : List α) :
    IsFirst (fun i => ∃ x, xs[i]? = some x ∧ q x) (xs.findIdx? q) := by
  cases h : xs.findIdx? q with
  | none =>
    rintro i ⟨x, hx, hq⟩
    have hnot := List.findIdx?_eq_none_iff.mp h x (List.mem_of_getElem? hx)
    simp [hq] at hnot
  | some i =>
    obtain ⟨hi, hq, hleast⟩ := List.findIdx?_eq_some_iff_getElem.mp h
    refine ⟨⟨xs[i], List.getElem?_eq_getElem hi, hq⟩, ?_⟩
    rintro j hj ⟨x, hx, hqx⟩
    obtain ⟨hlt, rfl⟩ := List.getElem?_eq_some_iff.mp hx
    exact hleast j hj hqx

section

variable (P : UInt8 → Prop) [DecidablePred P] (name : Bytes)

theorem followsSlash_succ_iff (i : Nat) : FollowsSlash P name (i + 1) ↔
    ∃ pair, (name.zip name.tail)[i]? = some pair ∧
      decide (pair.1 = Byte.separator ∧ P pair.2) := by
  simp only [FollowsSlash, Nat.le_add_left, true_and, Nat.add_sub_cancel, List.getElem?_zip_eq_some,
    List.getElem?_tail, decide_eq_true_eq]
  constructor
  · rintro ⟨hslash, b, hb, hp⟩
    exact ⟨(Byte.separator, b), ⟨hslash, hb⟩, rfl, hp⟩
  · rintro ⟨⟨a, b⟩, ⟨ha, hb⟩, rfl, hp⟩
    exact ⟨ha, b, hb, hp⟩

theorem isFirst_firstAfterSlash? : IsFirst (FollowsSlash P name) (firstAfterSlash? P name) := by
  apply IsFirst.map_succ
  · exact fun h => Nat.not_succ_le_zero 0 h.1
  · simp only [followsSlash_succ_iff]
    exact isFirst_findIdx? _ _

end

section

variable {P : UInt8 → Prop} (name : Bytes)

theorem startsBadly_iff (i : Nat) : StartsBadly name i ↔
    FollowsSlash (· = Byte.separator) name i ∨ FollowsSlash Byte.IsDigit name i := by
  simp [StartsBadly, FollowsSlash, and_or_left]

theorem faultAfter?_eq_repeatedSlash_iff (i : Nat) : faultAfter? name i = some .repeatedSlash ↔
    FollowsSlash (· = Byte.separator) name (i + 1) := by
  simp [faultAfter?_eq_some_iff, FollowsSlash]

theorem faultAfter?_eq_numericToken_iff (i : Nat) : faultAfter? name i = some .numericToken ↔
    FollowsSlash Byte.IsDigit name (i + 1) := by
  simp [faultAfter?_eq_some_iff, FollowsSlash]

variable {name}

theorem FollowsSlash.not_isDigit {i : Nat} (h : FollowsSlash (· = Byte.separator) name i) :
    ¬ FollowsSlash Byte.IsDigit name i := by
  obtain ⟨-, -, b, hb, rfl⟩ := h
  rintro ⟨-, -, c, hc, hdigit⟩
  obtain rfl := Option.some.inj (hb.symm.trans hc)
  exact Byte.not_isDigit_separator hdigit

theorem tokenStartFinding?_eq_some_iff_followsSlash {fault : Fault}
    (hfault : ∀ i, faultAfter? name i = some fault ↔ FollowsSlash P name (i + 1)) (i : Nat) :
    tokenStartFinding? 0 name = some ⟨fault, i⟩ ↔
      FollowsSlash P name i ∧ ∀ j < i, ¬ StartsBadly name j := by
  rw [tokenStartFinding?_eq_some_iff]
  constructor
  · rintro ⟨i, hi, rfl, hleast⟩
    rw [Nat.zero_add, ← hfault, forall_not_startsBadly_iff]
    exact ⟨hi, hleast⟩
  · rintro ⟨hi, hleast⟩
    obtain ⟨i, rfl⟩ := Nat.exists_eq_add_of_le' hi.1
    rw [← hfault] at hi
    rw [forall_not_startsBadly_iff] at hleast
    exact ⟨i, hi, (Nat.zero_add _).symm, hleast⟩

end

theorem tokenStartFinding?_eq_none_iff_startsBadly (name : Bytes) :
    tokenStartFinding? 0 name = none ↔ ∀ i, ¬ StartsBadly name i := by
  rw [tokenStartFinding?_eq_none_iff]
  constructor
  · intro h i
    exact (forall_not_startsBadly_iff name i).mpr (fun j _ => h j) i (Nat.lt_succ_self i)
  · intro h i
    exact (forall_not_startsBadly_iff name (i + 1)).mp (fun j _ => h j) i (Nat.lt_succ_self i)

/-- What the rule on how tokens start finds, in any name and whatever the grammar: nothing if both
passes find nothing, and else what the pass looks for that stops first. -/
theorem token_scan_is_earlier_of_two_scans (g : Grammar) (name : Bytes) :
    let slash? := firstAfterSlash? (· = Byte.separator) name
    let digit? := firstAfterSlash? Byte.IsDigit name
    (∀ r, IsFirst (FollowsSlash (· = Byte.separator) name) r ↔ slash? = r) ∧
    (∀ d, IsFirst (FollowsSlash Byte.IsDigit name) d ↔ digit? = d) ∧
    (∀ i, slash? = some i → digit? ≠ some i) ∧
    (g.breach? name .tokenStarts = none ↔ slash? = none ∧ digit? = none) ∧
    (∀ i, g.breach? name .tokenStarts = some ⟨.repeatedSlash, i⟩ ↔
      slash? = some i ∧ ∀ j, digit? = some j → i < j) ∧
    ∀ i, g.breach? name .tokenStarts = some ⟨.numericToken, i⟩ ↔
      digit? = some i ∧ ∀ j, slash? = some j → i < j := by
  intro slash? digit?
  have hslash : IsFirst (FollowsSlash (· = Byte.separator) name) slash? :=
    isFirst_firstAfterSlash? (· = Byte.separator) name
  have hdigit : IsFirst (FollowsSlash Byte.IsDigit name) digit? :=
    isFirst_firstAfterSlash? Byte.IsDigit name
  have hdisjoint : ∀ i, FollowsSlash Byte.IsDigit name i →
      ¬ FollowsSlash (· = Byte.separator) name i :=
    fun i hi hi' => hi'.not_isDigit hi
  refine ⟨hslash.iff_eq, hdigit.iff_eq, ?_, ?_, ?_, ?_⟩
  · exact fun i hi => hslash.ne_some_of_disjoint hdigit (fun _ h => h.not_isDigit) hi
  · rw [hslash.eq_none_iff, hdigit.eq_none_iff, ← forall_and]
    simp only [← not_or, ← startsBadly_iff]
    exact tokenStartFinding?_eq_none_iff_startsBadly name
  · intro i
    rw [← hslash.least_of_either_iff hdigit (fun _ h => h.not_isDigit) (startsBadly_iff name)]
    exact tokenStartFinding?_eq_some_iff_followsSlash (faultAfter?_eq_repeatedSlash_iff name) i
  · intro i
    rw [← hdigit.least_of_either_iff hslash hdisjoint
      fun j => (startsBadly_iff name j).trans or_comm]
    exact tokenStartFinding?_eq_some_iff_followsSlash (faultAfter?_eq_numericToken_iff name) i

/-- In `/1//a` the digit comes first, and in `/a//1` the second slash. -/
theorem token_scans_of_a_digit_and_a_slash :
    topicGrammar.breach? [0x2f, 0x31, 0x2f, 0x2f, 0x61] .tokenStarts = some ⟨.numericToken, 1⟩ ∧
    topicGrammar.breach? [0x2f, 0x61, 0x2f, 0x2f, 0x31] .tokenStarts = some ⟨.repeatedSlash, 3⟩ ∧
    firstAfterSlash? (· = Byte.separator) [0x2f, 0x31, 0x2f, 0x2f, 0x61] ≠ some 1 := by
  obtain ⟨-, -, hdiffer, -, -, hdigit⟩ :=
    token_scan_is_earlier_of_two_scans topicGrammar [0x2f, 0x31, 0x2f, 0x2f, 0x61]
  obtain ⟨-, -, -, -, hslash, -⟩ :=
    token_scan_is_earlier_of_two_scans topicGrammar [0x2f, 0x61, 0x2f, 0x2f, 0x31]
  refine ⟨(hdigit 1).mpr ⟨by decide, ?_⟩, (hslash 3).mpr ⟨by decide, ?_⟩, ?_⟩
  · decide
  · decide
  · exact fun h => hdiffer 1 h (by decide)

end RosNames
