import RosNames.Proofs.TokenStart

/-!
# The rules in machine words

A machine word holds the numbers up to some greatest one, `top`, and a sum or a difference outside
of them is not to be had. Below, the rules are carried out once more with words for lengths and
positions, and with no result where a step has none. No name that a machine can hold, and no limit,
brings that about: each step stays within a word, and the findings are those of the rules as they
stand.
-/

namespace RosNames

namespace Word

def add? (top a b : Nat) : Option Nat := if a + b ≤ top then some (a + b) else none

def sub? (a b : Nat) : Option Nat := if b ≤ a then some (a - b) else none

theorem add?_of_le {top a b : Nat} (h : a + b ≤ top) : add? top a b = some (a + b) := if_pos h

theorem sub?_of_le {a b : Nat} (h : b ≤ a) : sub? a b = some (a - b) := if_pos h

end Word

/-- The scan for empty and numeric tokens with a word for the position; it takes one step on for
each pair, whether or not the pair is faulty. -/
def tokenStartInWords? (top i : Nat) : Bytes → Option (Option Finding)
  | a :: b :: rest => do
    let next ← Word.add? top i 1
    match pairFault? a b with
    | some fault => return some ⟨fault, next⟩
    | none => tokenStartInWords? top next (b :: rest)
  | _ => some none

theorem tokenStartInWords?_eq (top i : Nat) (name : Bytes) (h : i + name.length ≤ top) :
    tokenStartInWords? top i name = some (tokenStartFinding? i name) := by
  induction name generalizing i with
  | nil => rfl
  | cons a name ih =>
    cases name with
    | nil => rfl
    | cons b rest =>
      simp only [List.length_cons] at h ih
      rw [tokenStartInWords?, Word.add?_of_le (by omega), Option.bind_eq_bind, Option.bind_some,
        tokenStartFinding?_cons_cons]
      cases pairFault? a b with
      | some fault => rfl
      | none => exact ih (i + 1) (by omega)

namespace Grammar

variable (g : Grammar) (name : Bytes) (top : Nat)

def breachInWords? : Rule → Option (Option Finding)
  | .noTrailingSlash =>
    if name.getLast?.any Byte.isSeparator then
      (Word.sub? name.length 1).map fun i => some ⟨.trailingSlash, i⟩
    else some none
  | .tokenStarts => tokenStartInWords? top 0 name
  | .withinLimit =>
    if g.maxLength < name.length then
      (Word.sub? g.maxLength 1).map fun i => some ⟨.tooLong, i⟩
    else some none
  | r => some (g.breach? name r)

def checkInWords? : Option (Option Finding) :=
  if g.allowsRoot && name == [Byte.separator] then some none
  else g.shape.rules.findSomeM? (g.breachInWords? name top)

variable {name top}

/-- A length is taken one less only of a name that has a last byte. -/
theorem breachInWords?_noTrailingSlash :
    g.breachInWords? name top .noTrailingSlash = some (g.breach? name .noTrailingSlash) := by
  cases name with
  | nil => rfl
  | cons b rest =>
    have hlength : 1 ≤ (b :: rest).length := Nat.succ_pos rest.length
    rw [breachInWords?, breach?, Word.sub?_of_le hlength]
    split <;> rfl

theorem breachInWords?_withinLimit :
    g.breachInWords? name top .withinLimit = some (g.breach? name .withinLimit) := by
  rw [breachInWords?, breach?, Word.sub?_of_le g.maxLength_pos]
  split <;> rfl

theorem breachInWords?_eq (h : name.length ≤ top) (r : Rule) :
    g.breachInWords? name top r = some (g.breach? name r) := by
  cases r with
  | noTrailingSlash => exact g.breachInWords?_noTrailingSlash
  | tokenStarts => exact tokenStartInWords?_eq top 0 name (by omega)
  | withinLimit => exact g.breachInWords?_withinLimit
  | _ => rfl

theorem checkInWords?_eq (h : name.length ≤ top) :
    g.checkInWords? name top = some (g.check name) := by
  have hrules : g.breachInWords? name top = fun r => pure (g.breach? name r) :=
    funext (g.breachInWords?_eq h)
  rw [checkInWords?, check, hrules, List.findSomeM?_pure]
  split <;> rfl

end Grammar
end RosNames
