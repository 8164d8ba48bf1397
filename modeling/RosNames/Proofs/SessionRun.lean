import RosNames.Entry.Session
import RosNames.Proofs.Verdict

/-!
# What a session leaves in the caller's variables

A step writes each of the two variables at most once, and whether it does depends on the step alone.
So after any number of steps a variable holds what was last written to it. The index outlives every
call that is refused, that finds a valid name or that is not lent the variable.
-/

namespace RosNames.Entry

namespace Call

variable (c : Call)

def IsRefused : Prop := c.buffer = none ∨ c.lendsResult = false

def checked? : Option Bytes := if c.lendsResult then c.buffer.map c.extent.name else none

def missing : String :=
  if c.buffer = none then "name argument is null" else "validation_result argument is null"

/-- A call that starts from `vars` and ends with `vars'` answers as its caller may expect. -/
structure Contract (vars : Variables) (code : ReturnCode) (events : List Event)
    (vars' : Variables) : Prop where
  invalidArgument_iff : code = .invalidArgument ↔ c.IsRefused
  ok_iff : code = .ok ↔ ¬ c.IsRefused
  ne_error : code ≠ .error
  unchanged : c.IsRefused → vars' = vars
  error_event : c.IsRefused → ∃ e, events = [e] ∧ e.level = .error ∧
    e.message = functionName c.kind ++ ": " ++ c.missing
  trace_event : ¬ c.IsRefused → ∃ e, events = [e] ∧ e.level = .trace

theorem isRefused_iff : c.IsRefused ↔ c.checked? = none := by
  unfold IsRefused checked?
  cases c.lendsResult <;> simp

theorem name_eq_ok_iff (name : Bytes) : c.name = .ok name ↔ c.checked? = some name := by
  unfold Call.name checked?
  cases c.buffer with
  | none => simp
  | some buffer => cases c.lendsResult <;> simp

theorem name_eq_error_iff (e : NameError) :
    c.name = .error e ↔ c.IsRefused ∧ e = .invalidArgument c.missing := by
  unfold Call.name IsRefused missing
  cases c.buffer with
  | none => simp [eq_comm (a := e)]
  | some buffer => cases c.lendsResult <;> simp [eq_comm (a := e)]

theorem run_of_isRefused (h : c.IsRefused) (vars : Variables) :
    c.run vars = { value := (.invalidArgument, vars)
                   events := [c.errorEvent (.invalidArgument c.missing)] } := by
  rw [run, (c.name_eq_error_iff _).mpr ⟨h, rfl⟩]
  rfl

theorem run_of_checked? {name : Bytes} (h : c.checked? = some name) (vars : Variables) :
    c.run vars = { value := (.ok, c.store (c.kind.validate name) vars)
                   events := [c.traceEvent name (c.kind.validate name)] } := by
  rw [run, (c.name_eq_ok_iff name).mpr h]

theorem contract_run (vars : Variables) :
    c.Contract vars (c.run vars).value.1 (c.run vars).events (c.run vars).value.2 := by
  cases h : c.checked? with
  | none =>
    have hrefused := c.isRefused_iff.mpr h
    rw [c.run_of_isRefused hrefused]
    exact {
      invalidArgument_iff := by simp [hrefused]
      ok_iff := by simp [hrefused]
      ne_error := by simp
      unchanged := fun _ => rfl
      error_event := fun _ => ⟨_, rfl, rfl, rfl⟩
      trace_event := fun hnot => absurd hrefused hnot }
  | some name =>
    have haccepted : ¬ c.IsRefused := by simp [c.isRefused_iff, h]
    rw [c.run_of_checked? h]
    exact {
      invalidArgument_iff := by simp [haccepted]
      ok_iff := by simp [haccepted]
      ne_error := by simp
      unchanged := fun hrefused => absurd hrefused haccepted
      error_event := fun hrefused => absurd hrefused haccepted
      trace_event := fun _ => ⟨_, rfl, rfl⟩ }

end Call

namespace Step

/-- What a step writes to the result variable: what the caller assigns, or the code of the name
that a call checks. -/
def resultWrite? : Step → Option Int
  | assign result _ => result
  | describe _ => none
  | call c => c.checked?.map fun name => ((c.kind.validate name).outcome.code : Int)

/-- What a step writes to the index variable: what the caller assigns, or the index of a name that
is not valid, if the call is lent the variable. -/
def indexWrite? : Step → Option Nat
  | assign _ index => index
  | describe _ => none
  | call c => c.checked?.bind fun name =>
      if c.lendsIndex ∧ ¬ (c.kind.validate name).isValid then (c.kind.validate name).index else none

theorem run_result (s : Step) (vars : Variables) :
    (s.run vars).2.result = s.resultWrite?.getD vars.result := by
  cases s with
  | assign result index => rfl
  | describe kind => rfl
  | call c =>
    cases h : c.checked? with
    | none => simp [run, resultWrite?, h, c.run_of_isRefused (c.isRefused_iff.mpr h)]
    | some name => simp [run, resultWrite?, h, c.run_of_checked? h, Call.store]

theorem run_index (s : Step) (vars : Variables) :
    (s.run vars).2.index = s.indexWrite?.getD vars.index := by
  cases s with
  | assign result index => rfl
  | describe kind => rfl
  | call c =>
    cases h : c.checked? with
    | none => simp [run, indexWrite?, h, c.run_of_isRefused (c.isRefused_iff.mpr h)]
    | some name =>
      by_cases hlends : c.lendsIndex
      · by_cases hvalid : (c.kind.validate name).isValid
        · -- a valid name has no index to write
          have hnone := (c.kind.index_validate_eq_none_iff name).mpr hvalid
          simp [run, indexWrite?, h, c.run_of_checked? h, Call.store, hvalid, hnone]
        · simp [run, indexWrite?, h, c.run_of_checked? h, Call.store, hlends, hvalid]
      · simp [run, indexWrite?, h, c.run_of_checked? h, Call.store, hlends]

end Step

theorem finish_cons (vars : Variables) (s : Step) (steps : List Step) :
    finish vars (s :: steps) = finish (s.run vars).2 steps := rfl

theorem finish_append (vars : Variables) (steps more : List Step) :
    finish vars (steps ++ more) = finish (finish vars steps) more := List.foldl_append

theorem transcript_getElem? (vars : Variables) (before : List Step) (s : Step) (after : List Step) :
    (transcript vars (before ++ s :: after))[before.length]? =
      some (s.run (finish vars before)) := by
  induction before generalizing vars with
  | nil => rfl
  | cons first before ih => exact ih (first.run vars).2

/-- A part of the variables that each step overwrites or leaves holds the last write. -/
theorem finish_eq_last_write {α : Type} (part : Variables → α) (write? : Step → Option α)
    (hwrite : ∀ s vars, part (s.run vars).2 = (write? s).getD (part vars)) (vars : Variables)
    (steps : List Step) :
    part (finish vars steps) = (steps.filterMap write?).getLast?.getD (part vars) := by
  induction steps generalizing vars with
  | nil => rfl
  | cons s steps ih =>
    rw [finish_cons, ih, hwrite, List.filterMap_cons]
    cases write? s with
    | none => rfl
    | some a => simp [List.getLast?_cons]

/-- In every session each call answers as promised and the variables hold the last writes. -/
theorem session_contract_and_last_writes (vars : Variables) (steps : List Step) :
    (∀ before c after, steps = before ++ .call c :: after →
      ∃ code events,
        (transcript vars steps)[before.length]? =
          some (.returned code events, finish vars (before ++ [.call c])) ∧
        c.Contract (finish vars before) code events (finish vars (before ++ [.call c]))) ∧
    (finish vars steps).result =
      (steps.filterMap Step.resultWrite?).getLast?.getD vars.result ∧
    (finish vars steps).index =
      (steps.filterMap Step.indexWrite?).getLast?.getD vars.index := by
  refine ⟨?_, finish_eq_last_write Variables.result _ Step.run_result vars steps,
    finish_eq_last_write Variables.index _ Step.run_index vars steps⟩
  rintro before c after rfl
  have hrun : finish vars (before ++ [.call c]) = (c.run (finish vars before)).value.2 := by
    rw [finish_append]
    rfl
  rw [transcript_getElem?, hrun]
  exact ⟨_, _, rfl, c.contract_run (finish vars before)⟩

/-- A refused call and then a valid name, after `/a//b`: its index is still there at the end. -/
theorem session_keeps_index_of_earlier_call :
    let faulty : Call :=
      ⟨.topicName, some [0x2f, 0x61, 0x2f, 0x2f, 0x62, 0], .terminated, true, true⟩
    let refused : Call := ⟨.nodeName, none, .sized 3, false, true⟩
    let valid : Call := ⟨.namespaceName, some [0x2f], .sized 1, true, true⟩
    let steps : List Step := [.call faulty, .call refused, .call valid]
    (∃ events, (transcript ⟨-1, 42⟩ steps)[1]? =
      some (.returned .invalidArgument events, ⟨5, 3⟩)) ∧
    (finish ⟨-1, 42⟩ steps).result = 0 ∧ (finish ⟨-1, 42⟩ steps).index = 3 := by
  intro faulty refused valid steps
  have h := session_contract_and_last_writes ⟨-1, 42⟩ steps
  obtain ⟨code, events, hreply, hcontract⟩ := h.1 [.call faulty] refused [.call valid] rfl
  have hcode : code = .invalidArgument := hcontract.invalidArgument_iff.mpr (Or.inl rfl)
  have hvars : finish ⟨-1, 42⟩ ([.call faulty] ++ [.call refused]) = ⟨5, 3⟩ := by decide
  rw [hcode, hvars] at hreply
  exact ⟨⟨events, hreply⟩, h.2.1.trans (by decide), h.2.2.trans (by decide)⟩

end RosNames.Entry
