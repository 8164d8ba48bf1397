import RosNames.Kind

/-!
# Plain texts

Descriptions, the words for the kinds and numbers are written in printed characters without a colon.
So none of them breaks a line, ends a terminated buffer, or hides where a name before a colon ends.
-/

namespace RosNames

/-- No control character and no colon is in the text. -/
def IsPlain (text : String) : Prop := ∀ c ∈ text.toList, ' ' ≤ c ∧ c ≠ ':'

instance : DecidablePred IsPlain := fun text =>
  List.decidableBAll (fun c => ' ' ≤ c ∧ c ≠ ':') text.toList

/-- A text that is written down is made of the list of its characters. -/
theorem isPlain_ofList {cs : List Char} (h : cs.all fun c => ' ' ≤ c ∧ c ≠ ':') :
    IsPlain (String.ofList cs) := by
  rw [IsPlain, String.toList_ofList]
  simpa using h

namespace IsPlain

variable {text text' : String}

theorem colon_notMem (h : IsPlain text) : ':' ∉ text.toList := fun hmem => (h _ hmem).2 rfl

theorem newline_notMem (h : IsPlain text) : '\n' ∉ text.toList :=
  fun hmem => absurd (h _ hmem).1 (by decide)

theorem nul_notMem (h : IsPlain text) : '\x00' ∉ text.toList :=
  fun hmem => absurd (h _ hmem).1 (by decide)

theorem append (h : IsPlain text) (h' : IsPlain text') : IsPlain (text ++ text') := by
  intro c hc
  rw [String.toList_append, List.mem_append] at hc
  rcases hc with hc | hc
  · exact h c hc
  · exact h' c hc

end IsPlain

theorem isPlain_repr (n : Nat) : IsPlain n.repr := by
  intro c hc
  rw [Nat.toList_repr] at hc
  have hdigit : c.isDigit := Nat.isDigit_of_mem_toDigits (by decide) (by decide) hc
  constructor
  · simp only [Char.isDigit, Bool.and_eq_true, decide_eq_true_eq, ge_iff_le,
      UInt32.le_iff_toNat_le] at hdigit
    rw [Char.le_def, UInt32.le_iff_toNat_le]
    exact Nat.le_trans (by decide) hdigit.1
  · rintro rfl
    exact absurd hdigit (by decide)

namespace Kind

variable {k : Kind}

theorem isPlain_keyword (k : Kind) : IsPlain k.keyword := by
  cases k <;> decide

theorem isPlain_unknownCode (k : Kind) : IsPlain k.unknownCode := by
  cases k <;> exact isPlain_ofList (by decide)

theorem isPlain_of_describe {o : Outcome k.shape} {reason : String}
    (h : k.describe o = some reason) : IsPlain reason := by
  cases k <;> cases o <;> simp only [describe, reduceCtorEq, Option.some.injEq] at h <;> subst h
  all_goals exact isPlain_ofList (by decide)

theorem isPlain_of_describeCode {c : Int} {text : String} (h : k.describeCode c = some text) :
    IsPlain text := by
  rw [describeCode] at h
  cases ho : Outcome.ofCode? k.shape c with
  | some o =>
    rw [ho] at h
    exact isPlain_of_describe h
  | none =>
    rw [ho] at h
    obtain rfl := Option.some.inj h
    exact k.isPlain_unknownCode

end Kind
end RosNames
