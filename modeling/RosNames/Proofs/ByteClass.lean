import RosNames.Byte

/-!
# Which classes a byte is in

The classes are ranges of byte values, and what is asked of a byte in a scan decides them. The bytes
of a token are those that may open one and the digits. The slash is none of them, so no byte both
belongs to a token and separates two.
-/

namespace RosNames.Byte

def IsDigit (b : UInt8) : Prop := 0x30 ≤ b ∧ b ≤ 0x39

def IsLetter (b : UInt8) : Prop := 0x41 ≤ b ∧ b ≤ 0x5a ∨ 0x61 ≤ b ∧ b ≤ 0x7a

/-- A letter or the underscore. -/
def OpensToken (b : UInt8) : Prop := IsLetter b ∨ b = 0x5f

instance : DecidablePred IsDigit := fun b => inferInstanceAs (Decidable (0x30 ≤ b ∧ b ≤ 0x39))

instance : DecidablePred IsLetter := fun b =>
  inferInstanceAs (Decidable (0x41 ≤ b ∧ b ≤ 0x5a ∨ 0x61 ≤ b ∧ b ≤ 0x7a))

instance : DecidablePred OpensToken := fun b =>
  inferInstanceAs (Decidable (IsLetter b ∨ b = 0x5f))

@[simp] theorem isSeparator_iff (b : UInt8) : isSeparator b = true ↔ b = separator := beq_iff_eq

@[simp] theorem any_isSeparator_iff (o : Option UInt8) :
    o.any isSeparator = true ↔ o = some separator := by
  cases o <;> simp

@[simp] theorem isDigit_iff (b : UInt8) : isDigit b = true ↔ IsDigit b := by
  simp [isDigit, IsDigit]

@[simp] theorem isDigit_eq_false_iff (b : UInt8) : isDigit b = false ↔ ¬ IsDigit b := by
  rw [← isDigit_iff, Bool.not_eq_true]

theorem isAlphanumeric_iff (b : UInt8) : isAlphanumeric b ↔ IsLetter b ∨ IsDigit b := by
  simp [isAlphanumeric, IsLetter, or_assoc, or_comm (a := IsDigit b)]

theorem isTokenByte_iff (b : UInt8) : isTokenByte b ↔ OpensToken b ∨ IsDigit b := by
  simp only [isTokenByte, Bool.or_eq_true, beq_iff_eq, isAlphanumeric_iff, OpensToken]
  exact or_right_comm

theorem isTokenByte_of_opensToken {b : UInt8} (h : OpensToken b) : isTokenByte b :=
  (isTokenByte_iff b).mpr (Or.inl h)

theorem opensToken_of_isTokenByte {b : UInt8} (h : isTokenByte b) (hd : ¬ IsDigit b) :
    OpensToken b :=
  ((isTokenByte_iff b).mp h).resolve_right hd

theorem not_isDigit_of_opensToken {b : UInt8} (h : OpensToken b) : ¬ IsDigit b := by
  simp only [OpensToken, IsLetter, IsDigit, UInt8.le_iff_toNat_le, ← UInt8.toNat_inj,
    UInt8.reduceToNat] at h ⊢
  omega

@[simp] theorem isTokenByte_separator : isTokenByte separator = false := by decide

@[simp] theorem not_isDigit_separator : ¬ IsDigit separator := by decide

theorem ne_separator_of_isTokenByte {b : UInt8} (h : isTokenByte b) : b ≠ separator := by
  rintro rfl
  simp at h

/-- The bytes of a token are characters by themselves. -/
theorem toNat_lt_of_isTokenByte {b : UInt8} (h : isTokenByte b) : b.toNat < 0x80 := by
  simp only [isTokenByte_iff, OpensToken, IsLetter, IsDigit, UInt8.le_iff_toNat_le,
    ← UInt8.toNat_inj, UInt8.reduceToNat] at h
  omega

end RosNames.Byte
