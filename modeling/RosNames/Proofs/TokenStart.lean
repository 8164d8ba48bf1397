import RosNames.Grammar
import RosNames.Proofs.ByteClass

/-!
# The scan for empty and numeric tokens

The scan passes over a name pair by pair and stops at the first pair of a slash and a byte that no
token may begin with. `faultAfter?` looks at a single pair; the scan finds the least position at
which it reports a fault.
-/

namespace RosNames

def pairFault? (a b : UInt8) : Option Fault :=
  if Byte.isSeparator a then
    if Byte.isSeparator b then some .repeatedSlash
    else if Byte.isDigit b then some .numericToken
    else none
  else none

/-- What is wrong with the byte after position `i`, if there is one. -/
def faultAfter? (name : Bytes) (i : Nat) : Option Fault :=
  match name[i]?, name[i + 1]? with
  | some a, some b => pairFault? a b
  | _, _ => none

theorem pairFault?_eq_some_iff (a b : UInt8) (f : Fault) :
    pairFault? a b = some f ↔ a = Byte.separator ∧
      (b = Byte.separator ∧ f = .repeatedSlash ∨ Byte.IsDigit b ∧ f = .numericToken) := by
  unfold pairFault?
  by_cases ha : a = Byte.separator
  · by_cases hb : b = Byte.separator
    · simp [ha, hb, eq_comm (a := f)]
    · by_cases hd : Byte.IsDigit b <;> simp [ha, hb, hd, eq_comm (a := f)]
  · simp [ha]

theorem faultAfter?_eq_some_iff (name : Bytes) (i : Nat) (f : Fault) :
    faultAfter? name i = some f ↔ name[i]? = some Byte.separator ∧
      (name[i + 1]? = some Byte.separator ∧ f = .repeatedSlash ∨
        (∃ b, name[i + 1]? = some b ∧ Byte.IsDigit b) ∧ f = .numericToken) := by
  unfold faultAfter?
  cases ha : name[i]? with
  | none => simp
  | some a =>
    cases hb : name[i + 1]? with
    | none => simp
    | some b => simp [pairFault?_eq_some_iff]

@[simp] theorem faultAfter?_cons_succ (a : UInt8) (name : Bytes) (i : Nat) :
    faultAfter? (a :: name) (i + 1) = faultAfter? name i := by
  simp [faultAfter?]

theorem faultAfter?_append_right (front name : Bytes) (i : Nat) :
    faultAfter? (front ++ name) (front.length + i) = faultAfter? name i := by
  induction front with
  | nil => simp
  | cons a front ih =>
    rw [List.cons_append, List.length_cons, Nat.add_right_comm, faultAfter?_cons_succ, ih]

theorem faultAfter?_append_of_lt {name : Bytes} {i : Nat} (h : i + 1 < name.length)
    (more : Bytes) : faultAfter? (name ++ more) i = faultAfter? name i := by
  rw [faultAfter?, List.getElem?_append_left (Nat.lt_of_succ_lt h), List.getElem?_append_left h,
    faultAfter?]

theorem succ_lt_length_of_faultAfter? {name : Bytes} {i : Nat} {f : Fault}
    (h : faultAfter? name i = some f) : i + 1 < name.length := by
  rcases ((faultAfter?_eq_some_iff name i f).mp h).2 with ⟨hnext, -⟩ | ⟨⟨b, hnext, -⟩, -⟩
  · exact (List.getElem?_eq_some_iff.mp hnext).1
  · exact (List.getElem?_eq_some_iff.mp hnext).1

theorem tokenStartFinding?_cons_cons (k : Nat) (a b : UInt8) (rest : Bytes) :
    tokenStartFinding? k (a :: b :: rest) =
      ((pairFault? a b).map fun f => ⟨f, k + 1⟩).or (tokenStartFinding? (k + 1) (b :: rest)) := by
  rw [tokenStartFinding?, pairFault?]
  split
  · split
    · rfl
    · split <;> rfl
  · rfl

theorem tokenStartFinding?_eq_none_iff (k : Nat) (name : Bytes) :
    tokenStartFinding? k name = none ↔ ∀ i, faultAfter? name i = none := by
  induction name generalizing k with
  | nil => simp [tokenStartFinding?, faultAfter?]
  | cons a name ih =>
    cases name with
    | nil => simp [tokenStartFinding?, faultAfter?]
    | cons b rest =>
      rw [tokenStartFinding?_cons_cons, Option.or_eq_none_iff, Option.map_eq_none_iff, ih]
      constructor
      · rintro ⟨hpair, hrest⟩ i
        cases i with
        | zero => exact hpair
        | succ i => exact hrest i
      · exact fun h => ⟨h 0, fun i => h (i + 1)⟩

/-- The scan stops after the least position at which a token goes wrong. -/
theorem tokenStartFinding?_eq_some_iff (k : Nat) (name : Bytes) (f : Finding) :
    tokenStartFinding? k name = some f ↔ ∃ i, faultAfter? name i = some f.fault ∧
      f.index = k + i + 1 ∧ ∀ j < i, faultAfter? name j = none := by
  induction name generalizing k with
  | nil => simp [tokenStartFinding?, faultAfter?]
  | cons a name ih =>
    cases name with
    | nil => simp [tokenStartFinding?, faultAfter?]
    | cons b rest =>
      rw [tokenStartFinding?_cons_cons]
      have hzero : faultAfter? (a :: b :: rest) 0 = pairFault? a b := rfl
      cases hp : pairFault? a b with
      | some fault =>
        -- a fault at the first pair leaves no smaller position free
        constructor
        · intro h
          obtain rfl : (⟨fault, k + 1⟩ : Finding) = f := by simpa using h
          exact ⟨0, hzero.trans hp, rfl, fun j hj => absurd hj (Nat.not_lt_zero j)⟩
        · rintro ⟨i, hi, hindex, hleast⟩
          cases i with
          | zero =>
            obtain rfl : fault = f.fault := by simpa [hzero, hp] using hi
            exact congrArg (fun n => some (⟨f.fault, n⟩ : Finding)) hindex.symm
          | succ i => simpa [hzero, hp] using hleast 0 (Nat.succ_pos i)
      | none =>
        rw [Option.map_none, Option.none_or, ih]
        constructor
        · rintro ⟨i, hi, hindex, hleast⟩
          refine ⟨i + 1, hi, by omega, fun j hj => ?_⟩
          cases j with
          | zero => exact hzero.trans hp
          | succ j => exact hleast j (Nat.lt_of_succ_lt_succ hj)
        · rintro ⟨i, hi, hindex, hleast⟩
          cases i with
          | zero => simp [hzero, hp] at hi
          | succ i =>
            exact ⟨i, hi, by omega, fun j hj => hleast (j + 1) (Nat.succ_lt_succ hj)⟩

theorem tokenStartFinding?_append (k : Nat) (token rest : Bytes)
    (h : ∀ b ∈ token, b ≠ Byte.separator) :
    tokenStartFinding? k (token ++ rest) = tokenStartFinding? (k + token.length) rest := by
  induction token generalizing k with
  | nil => rfl
  | cons a token ih =>
    have ha : pairFault? a = fun _ => none := by
      funext b
      simp [pairFault?, h a]
    have hrest := ih (k + 1) (fun b hb => h b (List.mem_cons_of_mem a hb))
    cases hcat : token ++ rest with
    | nil =>
      obtain ⟨rfl, rfl⟩ := List.append_eq_nil_iff.mp hcat
      rfl
    | cons b tail =>
      rw [List.cons_append, hcat, tokenStartFinding?_cons_cons, ha, Option.map_none, Option.none_or,
        ← hcat, hrest, List.length_cons, Nat.add_assoc, Nat.add_comm 1]

end RosNames
