import RosNames.Proofs.PlainText
import RosNames.Proofs.SessionRun
import RosNames.Proofs.Utf8RoundTrip

/-!
# The views of a validation

Whether a name is valid can be read off its outcome, its index, its description, the error that it
becomes, its report, and the code and the text that a foreign caller receives. Each of them looks at
a part of the validation only. They agree because the check leaves an index exactly where it leaves
a fault, and because no two outcomes of a kind share a code.
-/

namespace RosNames

namespace Outcome

variable {s : Shape}

theorem ofCode?_eq_some_iff (c : Int) (o : Outcome s) :
    ofCode? s c = some o ↔ (o.code : Int) = c := by
  constructor
  · intro h
    simpa using List.find?_some h
  · rintro rfl
    exact ofCode?_code o

theorem ofCode?_eq_none_iff (c : Int) :
    ofCode? s c = none ↔ ∀ o : Outcome s, (o.code : Int) ≠ c := by
  simp only [Option.eq_none_iff_forall_ne_some, ne_eq, ofCode?_eq_some_iff]

theorem map_code_all (s : Shape) : (all s).map code = List.range (all s).length := by
  cases s <;> rfl

theorem exists_code_iff (c : Int) :
    (∃ o : Outcome s, (o.code : Int) = c) ↔ 0 ≤ c ∧ c < (all s).length := by
  constructor
  · rintro ⟨o, rfl⟩
    have hmem : o ∈ all s := List.mem_of_find?_eq_some (ofCode?_code o)
    have hcode : o.code ∈ List.range (all s).length := by
      rw [← map_code_all]
      exact List.mem_map_of_mem hmem
    have hlt := List.mem_range.mp hcode
    omega
  · rintro ⟨hnonneg, hlt⟩
    obtain ⟨n, rfl⟩ := Int.eq_ofNat_of_zero_le hnonneg
    have hcode : n ∈ (all s).map code := by
      rw [map_code_all, List.mem_range]
      omega
    obtain ⟨o, -, ho⟩ := List.mem_map.mp hcode
    exact ⟨o, congrArg Int.ofNat ho⟩

theorem code_eq_zero_iff (o : Outcome s) : (o.code : Int) = 0 ↔ o = .valid := by
  rw [← ofCode?_eq_some_iff]
  have hvalid : ofCode? s 0 = some .valid := ofCode?_code .valid
  rw [hvalid, Option.some_inj, eq_comm]

end Outcome

namespace Kind

variable (k : Kind) (c : Int)

theorem describe_ne_unknownCode (o : Outcome k.shape) : k.describe o ≠ some k.unknownCode := by
  cases k <;> cases o <;> simp [describe, unknownCode]

theorem describeCode_code (o : Outcome k.shape) : k.describeCode o.code = k.describe o := by
  rw [describeCode, Outcome.ofCode?_code]

theorem describeCode_eq_none_iff : k.describeCode c = none ↔ c = 0 := by
  rw [describeCode]
  cases h : Outcome.ofCode? k.shape c with
  | some o =>
    obtain rfl := (Outcome.ofCode?_eq_some_iff c o).mp h
    exact (k.describe_eq_none_iff o).trans o.code_eq_zero_iff.symm
  | none =>
    have hc : c ≠ 0 := fun h0 => (Outcome.ofCode?_eq_none_iff c).mp h .valid h0.symm
    simpa using hc

theorem describeCode_eq_unknownCode_iff :
    k.describeCode c = some k.unknownCode ↔ ∀ o : Outcome k.shape, (o.code : Int) ≠ c := by
  rw [← Outcome.ofCode?_eq_none_iff, describeCode]
  cases h : Outcome.ofCode? k.shape c with
  | some o => simpa using k.describe_ne_unknownCode o
  | none => simp

end Kind

theorem Terminated.read_write {text : String} (h : '\x00' ∉ text.toList) :
    read (write text) = Utf8.encode text := by
  have hbytes : ∀ b ∈ Utf8.encode text, (b != 0) = true := by
    intro b hb
    have hne : b ≠ 0 := fun h0 => Utf8.zero_notMem_encode h (h0 ▸ hb)
    simpa using hne
  rw [read, write, List.takeWhile_append_of_pos hbytes]
  simp

namespace Validation

variable {k : Kind} (v : Validation k)

/-- Outcome, index, description and error all say that the name is valid, or none of them does. An
error carries the description and the index, and of a valid name nothing is logged. -/
structure IsCoherent : Prop where
  index_iff : v.index = none ↔ v.isValid
  description_iff : v.description = none ↔ v.isValid
  ensureValid_iff : v.ensureValid.value = .ok () ↔ v.isValid
  accepted : v.isValid → v.ensureValid.events = []
  rejected : ¬ v.isValid → ∃ reason index, v.description = some reason ∧ v.index = some index ∧
    v.ensureValid.value = .error (.invalidName k.title reason index) ∧
    (∃ e, v.ensureValid.events = [e] ∧ e.level = .debug) ∧
    v.display = reason ++ " (index " ++ index.repr ++ ")"

theorem description_eq_none_iff : v.description = none ↔ v.isValid := by
  rw [description, Kind.describe_eq_none_iff, isValid, Outcome.isValid_iff]

theorem ensureValid_of_some {reason : String} {index : Nat} (hreason : v.description = some reason)
    (hindex : v.index = some index) : v.ensureValid =
      { value := .error (.invalidName k.title reason index)
        events := [{
          level := .debug
          message :=
            "rejected " ++ k.title ++ ": " ++ reason ++ " at index " ++ index.repr }] } := by
  rw [ensureValid, hreason, hindex]

theorem isCoherent_of_index (h : v.index = none ↔ v.isValid) : v.IsCoherent := by
  have hdescription := v.description_eq_none_iff
  cases hi : v.index with
  | none =>
    have hvalid : v.isValid := h.mp hi
    have hensure : v.ensureValid = { value := .ok (), events := [] } := by
      simp [ensureValid, hi]
    exact {
      index_iff := h
      description_iff := hdescription
      ensureValid_iff := by simp [hensure, hvalid]
      accepted := fun _ => by rw [hensure]
      rejected := fun hnot => absurd hvalid hnot }
  | some index =>
    have hnot : ¬ v.isValid := by simp [← h, hi]
    obtain ⟨reason, hreason⟩ := Option.ne_none_iff_exists'.mp (mt hdescription.mp hnot)
    have hensure := v.ensureValid_of_some hreason hi
    exact {
      index_iff := h
      description_iff := hdescription
      ensureValid_iff := by simp [hensure, hnot]
      accepted := fun hvalid => absurd hvalid hnot
      rejected := fun _ => ⟨reason, index, hreason, hi, by rw [hensure], ⟨_, by rw [hensure], rfl⟩,
        by rw [display, hreason, hi]⟩ }

end Validation

theorem Kind.isCoherent_validate (k : Kind) (name : Bytes) : (k.validate name).IsCoherent :=
  (k.validate name).isCoherent_of_index (k.index_validate_eq_none_iff name)

structure Report.IsOf {k : Kind} (r : Report) (v : Validation k) : Prop where
  kind : r.kind = k
  valid : r.valid = v.isValid
  code : r.code = v.outcome.code
  result : r.result = v.outcome.label
  description : r.description = v.description
  index : r.index = v.index
  tooLong : r.tooLong = v.isTooLong

namespace Entry

variable (k : Kind)

theorem resultText_map_read (c : Int) :
    (resultText k c).map Terminated.read = (k.describeCode c).map Utf8.encode := by
  rw [resultText, Option.map_map]
  refine Option.map_congr fun text htext => ?_
  exact Terminated.read_write (Kind.isPlain_of_describeCode htext).nul_notMem

/-- The text that a foreign caller reads for a code is the description of the code. There is none
for the code of a valid name alone, and what is said of an unknown code is said of no other. -/
structure TellsCode (c : Int) : Prop where
  read : (resultText k c).map Terminated.read = (k.describeCode c).map Utf8.encode
  none_iff : resultText k c = none ↔ k.describeCode c = none
  describeCode_none_iff : k.describeCode c = none ↔ c = 0
  known_iff : ∀ o : Outcome k.shape, Outcome.ofCode? k.shape c = some o ↔ (o.code : Int) = c
  range_iff : (∃ o : Outcome k.shape, (o.code : Int) = c) ↔
    0 ≤ c ∧ c < (Outcome.all k.shape).length
  unknown_iff : k.describeCode c = some k.unknownCode ↔ ∀ o : Outcome k.shape, (o.code : Int) ≠ c

theorem tellsCode (c : Int) : TellsCode k c where
  read := resultText_map_read k c
  none_iff := by simp [resultText]
  describeCode_none_iff := k.describeCode_eq_none_iff c
  known_iff := Outcome.ofCode?_eq_some_iff c
  range_iff := Outcome.exists_code_iff c
  unknown_iff := k.describeCode_eq_unknownCode_iff c

/-- A caller whose variables were `before` and are `after` has learned of the validation. -/
structure Learns {k : Kind} (v : Validation k) (before after : Variables) : Prop where
  result : after.result = v.outcome.code
  index_kept : v.isValid → after.index = before.index
  index_written : ¬ v.isValid → v.index = some after.index
  text_none_iff : resultText k after.result = none ↔ v.isValid
  text : (resultText k after.result).map Terminated.read = v.description.map Utf8.encode
  text_ne_unknown :
    (resultText k after.result).map Terminated.read ≠ some (Utf8.encode k.unknownCode)

theorem learns_store {c : Call} (h : c.lendsIndex) {v : Validation c.kind} (hv : v.IsCoherent)
    (vars : Variables) : Learns v vars (c.store v vars) := by
  have htext : (resultText c.kind v.outcome.code).map Terminated.read =
      v.description.map Utf8.encode := by
    rw [resultText_map_read, Kind.describeCode_code, Validation.description]
  exact {
    result := rfl
    index_kept := fun hvalid => by simp [Call.store, hv.index_iff.mpr hvalid]
    index_written := by
      intro hnot
      obtain ⟨-, index, -, hindex, -⟩ := hv.rejected hnot
      simp [Call.store, h, hindex]
    text_none_iff := by
      rw [← hv.description_iff, Validation.description, ← Kind.describeCode_code]
      exact (tellsCode c.kind _).none_iff
    text := htext
    text_ne_unknown := by
      intro hunknown
      obtain ⟨text, hdescription, hencode⟩ := Option.map_eq_some_iff.mp (htext.symm.trans hunknown)
      rw [Utf8.encode_injective hencode] at hdescription
      exact c.kind.describe_ne_unknownCode v.outcome hdescription }

/-- The call that checks the first bytes of a buffer, as many as the name has, with both variables
lent. -/
def sizedCall (name rest : Bytes) : Call where
  kind := k
  buffer := some (name ++ rest)
  extent := .sized name.length
  lendsResult := true
  lendsIndex := true

theorem sizedCall_checked? (name rest : Bytes) : (sizedCall k name rest).checked? = some name := by
  simp [sizedCall, Call.checked?, Extent.name]

end Entry

/-- All that can be asked about a name is answered by its validation, and the answers agree. -/
theorem views_agree (k : Kind) (name : Bytes) :
    (k.validate name).IsCoherent ∧ (k.report name).IsOf (k.validate name) ∧
    (∀ rest vars, ((Entry.sizedCall k name rest).run vars).value.1 = .ok ∧
      Entry.Learns (k.validate name) vars ((Entry.sizedCall k name rest).run vars).value.2) ∧
    ∀ c, Entry.TellsCode k c := by
  refine ⟨k.isCoherent_validate name, ⟨rfl, rfl, rfl, rfl, rfl, rfl, rfl⟩, fun rest vars => ?_,
    Entry.tellsCode k⟩
  rw [Entry.Call.run_of_checked? _ (Entry.sizedCall_checked? k name rest)]
  exact ⟨rfl, Entry.learns_store (c := Entry.sizedCall k name rest) rfl
    (k.isCoherent_validate name) vars⟩

end RosNames
