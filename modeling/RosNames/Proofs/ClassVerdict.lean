import RosNames.Proofs.Verdict

/-!
# Verdicts see classes of bytes

The rules ask of a byte only whether it is the slash, whether it is a digit and whether it is
allowed, and the answer is the same for all bytes of a class. So one byte may stand for another of
its class anywhere in a name: the outcome stays, and so does the position that is to blame.
-/

namespace RosNames

namespace Byte

/-- The classes that verdicts tell apart. All bytes outside ASCII are in the last. -/
inductive Class
  | separator
  | digit
  | opener
  | other
  deriving DecidableEq, Repr

def classOf (b : UInt8) : Class :=
  if b = separator then .separator
  else if IsDigit b then .digit
  else if OpensToken b then .opener
  else .other

def toLower (b : UInt8) : UInt8 := if 0x41 ≤ b && b ≤ 0x5a then b + 0x20 else b

def IsStray (b : UInt8) : Prop := ¬ OpensToken b ∧ ¬ IsDigit b ∧ b ≠ separator

def AsksClass (p : UInt8 → Bool) : Prop := ∀ b b', classOf b = classOf b' → p b = p b'

theorem classOf_eq_separator_iff (b : UInt8) : classOf b = .separator ↔ b = separator := by
  unfold classOf
  grind

theorem classOf_eq_digit_iff (b : UInt8) : classOf b = .digit ↔ IsDigit b := by
  have hslash : ¬ IsDigit separator := not_isDigit_separator
  unfold classOf
  grind

theorem classOf_eq_opener_iff (b : UInt8) : classOf b = .opener ↔ OpensToken b := by
  have hslash : ¬ OpensToken separator := by decide
  have hdigit : OpensToken b → ¬ IsDigit b := not_isDigit_of_opensToken
  unfold classOf
  grind

theorem classOf_eq_other_iff (b : UInt8) : classOf b = .other ↔ IsStray b := by
  rw [IsStray, Ne, ← classOf_eq_separator_iff, ← classOf_eq_digit_iff, ← classOf_eq_opener_iff]
  cases classOf b <;> decide

theorem asksClass_isSeparator : AsksClass isSeparator := by
  intro b b' h
  rw [Bool.eq_iff_iff, isSeparator_iff, isSeparator_iff, ← classOf_eq_separator_iff,
    ← classOf_eq_separator_iff, h]

theorem asksClass_isDigit : AsksClass isDigit := by
  intro b b' h
  rw [Bool.eq_iff_iff, isDigit_iff, isDigit_iff, ← classOf_eq_digit_iff, ← classOf_eq_digit_iff, h]

theorem asksClass_isTokenByte : AsksClass isTokenByte := by
  intro b b' h
  rw [Bool.eq_iff_iff, isTokenByte_iff, isTokenByte_iff, ← classOf_eq_opener_iff,
    ← classOf_eq_opener_iff, ← classOf_eq_digit_iff, ← classOf_eq_digit_iff, h]

theorem isStray_of_not_ascii {b : UInt8} (h : 0x80 ≤ b.toNat) : IsStray b := by
  have htoken : ¬ isTokenByte b := fun htoken => Nat.not_lt.mpr h (toNat_lt_of_isTokenByte htoken)
  rw [isTokenByte_iff, not_or] at htoken
  refine ⟨htoken.1, htoken.2, ?_⟩
  rintro rfl
  exact absurd h (by decide)

theorem classOf_eq_of_both {b b' : UInt8} (h : OpensToken b ∧ OpensToken b' ∨
    IsDigit b ∧ IsDigit b' ∨ IsStray b ∧ IsStray b') : classOf b = classOf b' := by
  rcases h with ⟨h, h'⟩ | ⟨h, h'⟩ | ⟨h, h'⟩
  · rw [(classOf_eq_opener_iff b).mpr h, (classOf_eq_opener_iff b').mpr h']
  · rw [(classOf_eq_digit_iff b).mpr h, (classOf_eq_digit_iff b').mpr h']
  · rw [(classOf_eq_other_iff b).mpr h, (classOf_eq_other_iff b').mpr h']

theorem classOf_toLower (b : UInt8) : classOf (toLower b) = classOf b := by
  unfold toLower
  split
  · next h =>
    rw [Bool.and_eq_true, decide_eq_true_eq, decide_eq_true_eq] at h
    have hopens : OpensToken b := Or.inl (Or.inl h)
    have hlower : OpensToken (b + 0x20) := by
      refine Or.inl (Or.inr ?_)
      simp only [UInt8.le_iff_toNat_le, UInt8.toNat_add, UInt8.reduceToNat] at h ⊢
      omega
    rw [(classOf_eq_opener_iff _).mpr hlower, (classOf_eq_opener_iff _).mpr hopens]
  · rfl

end Byte

open Byte (classOf AsksClass)

variable {name name' : Bytes} {p : UInt8 → Bool}

theorem any_congr (hp : AsksClass p) {o o' : Option UInt8} (h : o.map classOf = o'.map classOf) :
    o.any p = o'.any p := by
  cases o with
  | none => cases o' with
    | none => rfl
    | some b' => simp at h
  | some b => cases o' with
    | none => simp at h
    | some b' => exact hp b b' (Option.some.inj h)

theorem findIdx?_congr (hp : AsksClass p) (h : name.map classOf = name'.map classOf) :
    name.findIdx? p = name'.findIdx? p := by
  induction name generalizing name' with
  | nil =>
    obtain rfl := List.map_eq_nil_iff.mp h.symm
    rfl
  | cons b name ih =>
    obtain ⟨b', rest, rfl, hb, hrest⟩ := List.map_eq_cons_iff.mp h.symm
    rw [List.findIdx?_cons, List.findIdx?_cons, hp b' b hb, ih hrest.symm]

theorem faultAfter?_congr (h : name.map classOf = name'.map classOf) (i : Nat) :
    faultAfter? name i = faultAfter? name' i := by
  have hget (j : Nat) : name[j]?.map classOf = name'[j]?.map classOf := by
    rw [← List.getElem?_map, ← List.getElem?_map, h]
  have hslash (j : Nat) : name[j]? = some Byte.separator ↔ name'[j]? = some Byte.separator := by
    rw [← Byte.any_isSeparator_iff, ← Byte.any_isSeparator_iff,
      any_congr Byte.asksClass_isSeparator (hget j)]
  have hdigit (j : Nat) : (∃ b, name[j]? = some b ∧ Byte.IsDigit b) ↔
      ∃ b, name'[j]? = some b ∧ Byte.IsDigit b := by
    simp only [← Byte.isDigit_iff]
    rw [← Option.any_eq_true, ← Option.any_eq_true, any_congr Byte.asksClass_isDigit (hget j)]
  ext f
  rw [faultAfter?_eq_some_iff, faultAfter?_eq_some_iff, hslash, hslash, hdigit]

theorem tokenStartFinding?_congr (h : name.map classOf = name'.map classOf) :
    tokenStartFinding? 0 name = tokenStartFinding? 0 name' := by
  have hafter : faultAfter? name = faultAfter? name' := funext (faultAfter?_congr h)
  ext f
  rw [tokenStartFinding?_eq_some_iff, tokenStartFinding?_eq_some_iff, hafter]

namespace Grammar

variable (g : Grammar)

theorem asksClass_not_allows : AsksClass fun b => !g.allows b := by
  intro b b' h
  simp only [allows, Byte.asksClass_isTokenByte b b' h, Byte.asksClass_isSeparator b b' h]

/-- No rule tells names apart whose bytes are of the same classes. -/
theorem breach?_eq_of_map_classOf_eq (h : name.map classOf = name'.map classOf) (r : Rule) :
    g.breach? name r = g.breach? name' r := by
  have hlength : name.length = name'.length := by simpa using congrArg List.length h
  have hhead : name.head?.map classOf = name'.head?.map classOf := by
    rw [← List.head?_map, ← List.head?_map, h]
  have hlast : name.getLast?.map classOf = name'.getLast?.map classOf := by
    rw [← List.getLast?_map, ← List.getLast?_map, h]
  cases r with
  | nonempty => simp only [breach?, List.isEmpty_iff_length_eq_zero, hlength]
  | absolute => rw [breach?, breach?, any_congr Byte.asksClass_isSeparator hhead]
  | noTrailingSlash =>
    rw [breach?, breach?, any_congr Byte.asksClass_isSeparator hlast, hlength]
  | allowedBytes => rw [breach?, breach?, findIdx?_congr g.asksClass_not_allows h]
  | tokenStarts => exact tokenStartFinding?_congr h
  | noLeadingDigit => rw [breach?, breach?, any_congr Byte.asksClass_isDigit hhead]
  | withinLimit => rw [breach?, breach?, hlength]

theorem eq_root_iff_map_classOf : name = [Byte.separator] ↔ name.map classOf = [.separator] := by
  simp only [List.map_eq_singleton_iff, Byte.classOf_eq_separator_iff, exists_eq_right]

theorem check_eq_of_map_classOf_eq (h : name.map classOf = name'.map classOf) :
    g.check name = g.check name' := by
  have hroot : (name == [Byte.separator]) = (name' == [Byte.separator]) := by
    rw [Bool.eq_iff_iff, beq_iff_eq, beq_iff_eq, eq_root_iff_map_classOf,
      eq_root_iff_map_classOf, h]
  have hrules : g.breach? name = g.breach? name' := funext (g.breach?_eq_of_map_classOf_eq h)
  rw [check, check, hroot, hrules]

end Grammar

theorem Kind.validate_eq_of_map_classOf_eq (k : Kind) (h : name.map classOf = name'.map classOf) :
    k.validate name = k.validate name' := by
  rw [validate, validate, k.grammar.check_eq_of_map_classOf_eq h]

/-- Names of one length whose bytes are of the same class at every position. -/
structure Alike (name name' : Bytes) : Prop where
  length_eq : name.length = name'.length
  class_eq : ∀ (i : Nat) b b', name[i]? = some b → name'[i]? = some b' → classOf b = classOf b'

theorem Alike.map_classOf_eq (h : Alike name name') : name.map classOf = name'.map classOf := by
  refine List.ext_getElem (by simpa using h.length_eq) fun i hi hi' => ?_
  rw [List.length_map] at hi hi'
  rw [List.getElem_map, List.getElem_map]
  exact h.class_eq i _ _ (List.getElem?_eq_getElem hi) (List.getElem?_eq_getElem hi')

theorem map_classOf_eq_of_map_toLower_eq (h : name.map Byte.toLower = name'.map Byte.toLower) :
    name.map classOf = name'.map classOf := by
  have hlower : classOf ∘ Byte.toLower = classOf := funext Byte.classOf_toLower
  simpa only [List.map_map, hlower] using congrArg (List.map classOf) h

/-- A verdict depends on the classes of the bytes. So neither the case of a letter nor the choice of
letters, digits and bytes that are allowed nowhere has a say in it. -/
theorem verdict_depends_on_classes :
    (∀ (g : Grammar) name name', Alike name name' → g.check name = g.check name') ∧
    (∀ (k : Kind) name name', Alike name name' → k.validate name = k.validate name') ∧
    (∀ (k : Kind) (name name' : Bytes), name.map Byte.toLower = name'.map Byte.toLower →
      k.validate name = k.validate name') ∧
    (∀ (k : Kind) front back b b', Byte.OpensToken b ∧ Byte.OpensToken b' ∨
      Byte.IsDigit b ∧ Byte.IsDigit b' ∨ Byte.IsStray b ∧ Byte.IsStray b' →
      k.validate (front ++ b :: back) = k.validate (front ++ b' :: back)) ∧
    ∀ b : UInt8, 0x80 ≤ b.toNat → Byte.IsStray b := by
  refine ⟨fun g name name' h => g.check_eq_of_map_classOf_eq h.map_classOf_eq,
    fun k name name' h => k.validate_eq_of_map_classOf_eq h.map_classOf_eq,
    fun k name name' h => k.validate_eq_of_map_classOf_eq (map_classOf_eq_of_map_toLower_eq h),
    fun k front back b b' h => k.validate_eq_of_map_classOf_eq ?_,
    fun b => Byte.isStray_of_not_ascii⟩
  rw [List.map_append, List.map_append, List.map_cons, List.map_cons, Byte.classOf_eq_of_both h]

/-- `/A1` and `/z9` have one verdict, and so have `/a` and `/A`, and the two names in which a blank
and a byte outside ASCII come before a slash. -/
theorem verdicts_of_names_alike :
    Kind.topicName.validate [0x2f, 0x41, 0x31] = Kind.topicName.validate [0x2f, 0x7a, 0x39] ∧
    topicGrammar.check [0x2f, 0x41, 0x31] = topicGrammar.check [0x2f, 0x7a, 0x39] ∧
    Kind.namespaceName.validate [0x2f, 0x61] = Kind.namespaceName.validate [0x2f, 0x41] ∧
    Kind.nodeName.validate [0x20, 0x2f] = Kind.nodeName.validate [0xff, 0x2f] := by
  obtain ⟨hcheck, hvalidate, hcase, hbyte, hstray⟩ := verdict_depends_on_classes
  have halike : Alike [0x2f, 0x41, 0x31] [0x2f, 0x7a, 0x39] := by
    refine ⟨rfl, fun i b b' hb hb' => ?_⟩
    match i, hb, hb' with
    | 0, rfl, rfl => rfl
    | 1, rfl, rfl => rfl
    | 2, rfl, rfl => rfl
  have hblank : Byte.IsStray 0x20 := ⟨by decide, by decide, by decide⟩
  exact ⟨hvalidate _ _ _ halike, hcheck _ _ _ halike, hcase _ _ _ (by decide),
    hbyte .nodeName [] [0x2f] _ _ (Or.inr (Or.inr ⟨hblank, hstray 0xff (by decide)⟩))⟩

end RosNames
