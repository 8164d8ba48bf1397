import RosNames.Proofs.Verdict

/-!
# Namespaces by way of topic names

A namespace can be checked in layers. The root is accepted at once; every other name is handed to
the check for topic names, and where that check finds nothing wrong but perhaps the length, the
length is compared with the smaller limit of namespaces. The check for namespaces does not call the
other one, but it gives the same answer.
-/

namespace RosNames

def Validation.answer {k : Kind} (v : Validation k) : Nat × Option Nat := (v.outcome.code, v.index)

/-- The answer about a namespace that the layers give. -/
def layeredAnswer (name : Bytes) : Nat × Option Nat :=
  let valid := (Outcome.code (s := Kind.namespaceName.shape) .valid, none)
  let tooLong := (Outcome.code (s := Kind.namespaceName.shape) .tooLong, some 253)
  if name = [Byte.separator] then valid
  else
    let topic := Kind.topicName.validate name
    if topic.isValidIgnoringLength then if 254 < name.length then tooLong else valid
    else topic.answer

theorem flaw?_namespaceGrammar {name : Bytes} (h : name ≠ [Byte.separator]) :
    namespaceGrammar.flaw? name = topicGrammar.flaw? name :=
  Grammar.flaw?_congr name rfl rfl h

/-- Checking namespaces and checking in layers come to the same code and index. -/
theorem namespace_answer_eq_layeredAnswer (name : Bytes) :
    (Kind.namespaceName.validate name).answer = layeredAnswer name := by
  by_cases hroot : name = [Byte.separator]
  · subst hroot
    rfl
  · have hflaw := flaw?_namespaceGrammar hroot
    have htopic := Kind.isValidIgnoringLength_validate_iff .topicName name
    rw [layeredAnswer, if_neg hroot]
    rcases Kind.validate_cases .namespaceName name with
      ⟨f, h, hv⟩ | ⟨h, hlong, hv⟩ | ⟨h, hshort, hv⟩
    · -- a flaw is the same finding for a topic name
      have hsame := hflaw.symm.trans h
      have hnot : ¬ (Kind.topicName.validate name).isValidIgnoringLength :=
        fun hlength => Option.some_ne_none f (hsame.symm.trans (htopic.mp hlength))
      rw [if_neg hnot, Kind.validate_of_flaw? .topicName name hsame, hv]
      rfl
    · change 254 < name.length at hlong
      rw [if_pos (htopic.mpr (hflaw.symm.trans h)), if_pos hlong, hv]
      rfl
    · change name.length ≤ 254 at hshort
      rw [if_pos (htopic.mpr (hflaw.symm.trans h)), if_neg (Nat.not_lt.mpr hshort), hv]
      rfl

end RosNames
