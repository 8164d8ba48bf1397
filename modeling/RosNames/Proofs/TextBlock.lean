import RosNames.Cli.Check
import RosNames.Proofs.SafeCut
import RosNames.Proofs.Views

/-!
# What is written about a name as text

The block of a name is one line if the name is valid or empty. Otherwise it is three lines: the
message, the name again, and a caret with a space for every byte in front of the one to blame. Only
that caret can keep a block from being written, since the index of a fault lies inside every name
but the empty one.
-/

namespace RosNames

theorem Utf8.encode_eq_nil_iff (text : String) : encode text = [] ↔ text = "" := by
  constructor
  · intro h
    exact encode_injective (b := "") h
  · rintro rfl
    rfl

namespace Kind

variable (k : Kind) {name : Bytes} {i : Nat}

theorem exists_description_of_index (h : (k.validate name).index = some i) :
    ∃ reason, (k.validate name).description = some reason := by
  have hcoherent := k.isCoherent_validate name
  have hinvalid : ¬ (k.validate name).isValid := by simp [← hcoherent.index_iff, h]
  obtain ⟨reason, -, hreason, -⟩ := hcoherent.rejected hinvalid
  exact ⟨reason, hreason⟩

/-- Every fault but that of the empty name has a byte to point at. -/
theorem index_lt_length_iff (h : (k.validate name).index = some i) :
    i < name.length ↔ name ≠ [] := by
  constructor
  · rintro hlt rfl
    exact absurd hlt (Nat.not_lt_zero i)
  · exact (k.isSafeCut_of_validate h).lt_length

end Kind

namespace Cli

def unlines (lines : List String) : String := String.join (lines.map (· ++ "\n"))

def message (name reason : String) (index : Nat) : String :=
  name ++ ": " ++ reason ++ " (index " ++ index.repr ++ ")"

def caret (spaces : Nat) : String := String.ofList (List.replicate spaces ' ' ++ ['^'])

/-- The lines that are written about a name, if its caret can be placed. -/
inductive IsBlockOf (k : Kind) (name : String) : List String → Prop
  | valid (h : (k.validate (Utf8.encode name)).isValid) :
      IsBlockOf k name [name ++ ": valid " ++ k.keyword]
  | empty {reason : String} {i : Nat} (hname : name = "")
      (hindex : (k.validate (Utf8.encode name)).index = some i)
      (hreason : (k.validate (Utf8.encode name)).description = some reason) :
      IsBlockOf k name [message name reason i]
  | fault {reason : String} {i : Nat} (hname : name ≠ "")
      (hindex : (k.validate (Utf8.encode name)).index = some i)
      (hreason : (k.validate (Utf8.encode name)).description = some reason)
      (hfits : i < maxColumns) :
      IsBlockOf k name [message name reason i, name, caret i]

variable {k : Kind} {name reason : String} {i : Nat}

theorem unlines_nil : unlines [] = "" := rfl

theorem unlines_cons (line : String) (lines : List String) :
    unlines (line :: lines) = line ++ "\n" ++ unlines lines := by
  rw [unlines, List.map_cons, String.join_cons, unlines]

theorem unlines_cons_append (line : String) (lines : List String) (rest : String) :
    unlines (line :: lines) ++ rest = line ++ "\n" ++ (unlines lines ++ rest) := by
  rw [unlines_cons, String.append_assoc]

theorem unlines_cons_ne_empty (line : String) (lines : List String) :
    unlines (line :: lines) ≠ "" := by
  simp [unlines_cons]

theorem faultLine_eq (name reason : String) (i : Nat) :
    faultLine name reason i = message name reason i ++ "\n" := by
  have hbreak : ")\n" = ")" ++ "\n" := rfl
  rw [faultLine, message, hbreak, ← String.append_assoc]

theorem caretLine_eq (i : Nat) : caretLine i = caret i ++ "\n" := rfl

theorem validLine_eq (name : String) (k : Kind) :
    validLine name k = name ++ ": valid " ++ k.keyword ++ "\n" := rfl

theorem textBlock_of_isValid (h : (k.validate (Utf8.encode name)).isValid) :
    textBlock name (k.report (Utf8.encode name)) =
      .ok (unlines [name ++ ": valid " ++ k.keyword]) := by
  have hindex : (k.report (Utf8.encode name)).index = none :=
    (k.index_validate_eq_none_iff _).mpr h
  have hdescription : (k.report (Utf8.encode name)).description = none :=
    (Validation.description_eq_none_iff _).mpr h
  simp only [textBlock, hindex, hdescription, validLine_eq, unlines_cons, unlines_nil,
    String.append_empty]
  rfl

/-- Of a name with a fault the message is always written, and the caret below it if it fits. -/
theorem textBlock_of_index (hindex : (k.validate (Utf8.encode name)).index = some i)
    (hreason : (k.validate (Utf8.encode name)).description = some reason) :
    textBlock name (k.report (Utf8.encode name)) =
      if name = "" then .ok (unlines [message name reason i])
      else if i < maxColumns then .ok (unlines [message name reason i, name, caret i])
      else .error (unlines [message name reason i, name]) := by
  have hinside : i < (Utf8.encode name).length ↔ ¬ name = "" :=
    (k.index_lt_length_iff hindex).trans (not_congr (Utf8.encode_eq_nil_iff name))
  have hdescription : (k.report (Utf8.encode name)).description = some reason := hreason
  have hindex : (k.report (Utf8.encode name)).index = some i := hindex
  simp only [textBlock, hindex, hdescription, hinside, ite_not, faultLine_eq, caretLine_eq,
    unlines_cons, unlines_nil, String.append_empty, String.append_assoc, Nat.succ_le_iff]

theorem textBlock_of_isBlockOf {lines : List String} (h : IsBlockOf k name lines) :
    textBlock name (k.report (Utf8.encode name)) = .ok (unlines lines) := by
  cases h with
  | valid h => exact textBlock_of_isValid h
  | empty hname hindex hreason => rw [textBlock_of_index hindex hreason, if_pos hname]
  | fault hname hindex hreason hfits =>
    rw [textBlock_of_index hindex hreason, if_neg hname, if_pos hfits]

/-- A name has a block, or its caret would stand too far to the right. -/
theorem isBlockOf_or_error (k : Kind) (name : String) : (∃ lines, IsBlockOf k name lines) ∨
    ∃ i reason, (k.validate (Utf8.encode name)).index = some i ∧ maxColumns ≤ i ∧
      textBlock name (k.report (Utf8.encode name)) =
        .error (unlines [message name reason i, name]) := by
  cases hindex : (k.validate (Utf8.encode name)).index with
  | none => exact Or.inl ⟨_, .valid ((k.index_validate_eq_none_iff _).mp hindex)⟩
  | some i =>
    obtain ⟨reason, hreason⟩ := k.exists_description_of_index hindex
    by_cases hname : name = ""
    · exact Or.inl ⟨_, .empty hname hindex hreason⟩
    · by_cases hfits : i < maxColumns
      · exact Or.inl ⟨_, .fault hname hindex hreason hfits⟩
      · have herror := textBlock_of_index hindex hreason
        rw [if_neg hname, if_neg hfits] at herror
        exact Or.inr ⟨i, reason, rfl, Nat.le_of_not_lt hfits, herror⟩

theorem textBlock_eq_ok_iff (output : String) :
    textBlock name (k.report (Utf8.encode name)) = .ok output ↔
      ∃ lines, IsBlockOf k name lines ∧ output = unlines lines := by
  constructor
  · intro h
    rcases isBlockOf_or_error k name with ⟨lines, hlines⟩ | ⟨_, _, _, _, herror⟩
    · exact ⟨lines, hlines, Except.ok.inj (h.symm.trans (textBlock_of_isBlockOf hlines))⟩
    · cases h.symm.trans herror
  · rintro ⟨lines, hlines, rfl⟩
    exact textBlock_of_isBlockOf hlines

theorem lt_maxColumns_of_isBlockOf {lines : List String} (h : IsBlockOf k name lines)
    (hindex : (k.validate (Utf8.encode name)).index = some i) : i < maxColumns := by
  cases h with
  | valid h =>
    rw [← k.index_validate_eq_none_iff, hindex] at h
    cases h
  | empty hname =>
    have hzero : i = 0 :=
      (k.isSafeCut_of_validate hindex).eq_zero ((Utf8.encode_eq_nil_iff name).mpr hname)
    rw [hzero]
    decide
  | fault _ hindex' _ hfits =>
    rw [hindex'] at hindex
    exact Option.some.inj hindex ▸ hfits

theorem exists_isBlockOf_iff (k : Kind) (name : String) : (∃ lines, IsBlockOf k name lines) ↔
    ∀ i, (k.validate (Utf8.encode name)).index = some i → i < maxColumns := by
  constructor
  · rintro ⟨lines, hlines⟩ i hindex
    exact lt_maxColumns_of_isBlockOf hlines hindex
  · intro h
    rcases isBlockOf_or_error k name with hlines | ⟨i, -, hindex, hfar, -⟩
    · exact hlines
    · exact absurd (h i hindex) (Nat.not_lt.mpr hfar)

theorem textBlock_eq_error {written : String}
    (h : textBlock name (k.report (Utf8.encode name)) = .error written) :
    ∃ i reason, (k.validate (Utf8.encode name)).index = some i ∧ maxColumns ≤ i ∧
      written = unlines [message name reason i, name] := by
  rcases isBlockOf_or_error k name with ⟨lines, hlines⟩ | ⟨i, reason, hindex, hfar, herror⟩
  · cases (textBlock_of_isBlockOf hlines).symm.trans h
  · exact ⟨i, reason, hindex, hfar, Except.error.inj (h.symm.trans herror)⟩

end Cli
end RosNames
