import RosNames.Kind
import RosNames.Log
import RosNames.NameError
import RosNames.Text.Json

/-!
# Validations

The validation of a name is its outcome and, if the name is not valid, the index of the byte that
is to blame. A validation may also be put together by hand, so nothing here relies on outcome and
index fitting one another.
-/

namespace RosNames

structure Validation (k : Kind) where
  outcome : Outcome k.shape
  index : Option Nat
  deriving DecidableEq, Repr

def Kind.validate (k : Kind) (name : Bytes) : Validation k :=
  match k.grammar.check name with
  | none => ⟨.valid, none⟩
  | some f => ⟨.ofFault k.shape f.fault, some f.index⟩

namespace Validation

variable {k : Kind} (v : Validation k)

def isValid : Bool := v.outcome.isValid

def isTooLong : Bool := v.outcome.isTooLong

/-- Nothing is wrong with the name but perhaps its length. -/
def isValidIgnoringLength : Bool := v.isValid || v.isTooLong

def description : Option String := k.describe v.outcome

def display : String :=
  match v.description, v.index with
  | some reason, some index => reason ++ " (index " ++ index.repr ++ ")"
  | some reason, none => reason
  | none, _ => "valid " ++ k.title

/-- Insist on a valid name: a fault becomes an error and is reported. -/
def ensureValid : Logged (Except NameError Unit) :=
  match v.description, v.index with
  | some reason, some index =>
    { value := .error (.invalidName k.title reason index)
      events := [{
        level := .debug
        message := "rejected " ++ k.title ++ ": " ++ reason ++ " at index " ++ index.repr }] }
  | _, _ => { value := .ok (), events := [] }

def json : String :=
  Json.object [("result", .text v.outcome.label), ("invalid_index", .ofOption .number v.index)]

end Validation
end RosNames
