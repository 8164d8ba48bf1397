import RosNames.Proofs.Verdict

/-!
# The limit on the length

Whatever else is wrong with a name is wrong with it under every limit, and if nothing else is, the
name is accepted by the limits that it keeps and too long for the others. Lifted to the length of
the name, the limit of a grammar refuses nothing, and what is left is the verdict of the other
rules.
-/

namespace RosNames

/-- The name is accepted, or nothing is wrong with it but its length. -/
def IsAboutLength (found : Option Finding) : Prop := ∀ f, found = some f → f.fault = .tooLong

namespace Grammar

variable (g : Grammar) (name : Bytes)

def withLimit (limit : Nat) (h : 0 < limit) : Grammar :=
  { g with
    maxLength := limit
    maxLength_pos := h }

/-- The same rules with the least limit that the name keeps. -/
def lifted : Grammar := g.withLimit (max name.length 1) (Nat.le_max_right name.length 1)

theorem flaw?_withLimit {limit : Nat} (h : 0 < limit) :
    (g.withLimit limit h).flaw? name = g.flaw? name := by
  have hrules := findSome?_breach?_congr name (g := g.withLimit limit h) (h := g) rfl
    g.shape.withinLimit_notMem_flawRules
  change (if g.allowsRoot && name == [Byte.separator] then none
    else g.shape.flawRules.findSome? ((g.withLimit limit h).breach? name)) = g.flaw? name
  rw [hrules, flaw?]

theorem check_withLimit {limit : Nat} (h : 0 < limit) : (g.withLimit limit h).check name =
    (g.flaw? name).or (if limit < name.length then some ⟨.tooLong, limit - 1⟩ else none) := by
  rw [check_eq_flaw?_or, flaw?_withLimit]
  rfl

theorem check_lifted : (g.lifted name).check name = g.flaw? name := by
  have hkept : ¬ max name.length 1 < name.length := Nat.not_lt.mpr (Nat.le_max_left name.length 1)
  rw [lifted, check_withLimit, if_neg hkept, Option.or_none]

theorem check_withLimit_of_flaw? {f : Finding} (h : g.flaw? name = some f) {limit : Nat}
    (hlimit : 0 < limit) : (g.withLimit limit hlimit).check name = some f := by
  rw [check_withLimit, h, Option.some_or]

theorem check_withLimit_of_flaw?_eq_none (h : g.flaw? name = none) {limit : Nat}
    (hlimit : 0 < limit) : (g.withLimit limit hlimit).check name =
      if name.length ≤ limit then none else some ⟨.tooLong, limit - 1⟩ := by
  rw [check_withLimit, h, Option.none_or]
  split
  case isTrue hlong => rw [if_neg (Nat.not_le.mpr hlong)]
  case isFalse hshort => rw [if_pos (Nat.not_lt.mp hshort)]

variable {m n : Nat} (hm : 0 < m) (hn : 0 < n)

theorem isAboutLength_check_withLimit (h : g.flaw? name = none) :
    IsAboutLength ((g.withLimit m hm).check name) := by
  intro f hf
  rw [g.check_withLimit_of_flaw?_eq_none name h] at hf
  split at hf
  · cases hf
  · obtain rfl := Option.some.inj hf
    rfl

theorem isAboutLength_of_check_ne
    (h : (g.withLimit m hm).check name ≠ (g.withLimit n hn).check name) :
    IsAboutLength ((g.withLimit m hm).check name) ∧
      IsAboutLength ((g.withLimit n hn).check name) := by
  cases hflaw : g.flaw? name with
  | none =>
    exact ⟨g.isAboutLength_check_withLimit name hm hflaw,
      g.isAboutLength_check_withLimit name hn hflaw⟩
  | some f =>
    rw [g.check_withLimit_of_flaw? name hflaw, g.check_withLimit_of_flaw? name hflaw] at h
    exact absurd rfl h

theorem check_withLimit_mono (hle : m ≤ n) (h : (g.withLimit m hm).check name = none) :
    (g.withLimit n hn).check name = none := by
  obtain ⟨hflaw, hlength⟩ := ((g.withLimit m hm).check_eq_none_iff name).mp h
  rw [flaw?_withLimit] at hflaw
  rw [g.check_withLimit_of_flaw?_eq_none name hflaw, if_pos (Nat.le_trans hlength hle)]

end Grammar

/-- A limit decides about the length of a name and about nothing else. -/
theorem limit_decides_length_alone (g : Grammar) (name : Bytes) :
    (∀ f, (g.lifted name).check name = some f → f.fault ≠ .tooLong ∧
      ∀ m hm, (g.withLimit m hm).check name = some f) ∧
    ((g.lifted name).check name = none → ∀ m hm, (g.withLimit m hm).check name =
      if name.length ≤ m then none else some ⟨.tooLong, m - 1⟩) ∧
    (∀ m hm n hn, (g.withLimit m hm).check name ≠ (g.withLimit n hn).check name →
      IsAboutLength ((g.withLimit m hm).check name) ∧
        IsAboutLength ((g.withLimit n hn).check name)) ∧
    (∀ m hm n hn, m ≤ n → (g.withLimit m hm).check name = none →
      (g.withLimit n hn).check name = none) ∧
    (∀ k : Kind, (k.validate name).isValidIgnoringLength ↔
      (k.grammar.lifted name).check name = none) := by
  simp only [Grammar.check_lifted]
  refine ⟨fun f h => ⟨g.flaw?_fault_ne_tooLong name h, ?_⟩, ?_, ?_, ?_, ?_⟩
  · exact fun m hm => g.check_withLimit_of_flaw? name h hm
  · exact fun h m hm => g.check_withLimit_of_flaw?_eq_none name h hm
  · exact fun m hm n hn => g.isAboutLength_of_check_ne name hm hn
  · exact fun m hm n hn => g.check_withLimit_mono name hm hn
  · exact fun k => k.isValidIgnoringLength_validate_iff name

/-- The path `/a/b` of four bytes is too long for a limit of 2 and for no limit from 4 on, and the
slash at the end of `/a/b/` is to blame under a limit of 1 as well. -/
theorem limits_of_a_path_and_of_a_trailing_slash :
    let path : Bytes := [0x2f, 0x61, 0x2f, 0x62]
    let g := topicGrammar
    (g.withLimit 2 (by decide)).check path = some ⟨.tooLong, 1⟩ ∧
    (g.withLimit 9 (by decide)).check path = none ∧
    IsAboutLength ((g.withLimit 3 (by decide)).check path) ∧
    (g.withLimit 1 (by decide)).check (path ++ [0x2f]) = some ⟨.trailingSlash, 4⟩ := by
  intro path g
  obtain ⟨-, hpath, hdiffer, hmono, -⟩ := limit_decides_length_alone g path
  obtain ⟨hflaw, -⟩ := limit_decides_length_alone g (path ++ [0x2f])
  have hlifted : (g.lifted path).check path = none := by decide
  have hfour : (g.withLimit 4 (by decide)).check path = none := hpath hlifted 4 (by decide)
  exact ⟨hpath hlifted 2 (by decide), hmono 4 (by decide) 9 (by decide) (by decide) hfour,
    (hdiffer 2 (by decide) 3 (by decide) (by decide)).2,
    (hflaw ⟨.trailingSlash, 4⟩ (by decide)).2 1 (by decide)⟩

end RosNames
