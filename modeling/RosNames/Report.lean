import RosNames.Text.Quoted
import RosNames.Validation

/-!
# Reports

A report says of a validation all that there is to say, without the type of the outcome, so the
reports of all kinds are of one type.
-/

namespace RosNames

structure Report where
  kind : Kind
  valid : Bool
  code : Nat
  result : String
  description : Option String
  index : Option Nat
  tooLong : Bool
  deriving DecidableEq, Repr

def Validation.report {k : Kind} (v : Validation k) : Report where
  kind := k
  valid := v.isValid
  code := v.outcome.code
  result := v.outcome.label
  description := v.description
  index := v.index
  tooLong := v.isTooLong

def Kind.report (k : Kind) (name : Bytes) : Report := (k.validate name).report

namespace Report

/-- The members of the report as an object; that a name is too long shows in its result. -/
def members (r : Report) : List (String × Json.Value) :=
  [("kind", .text r.kind.keyword), ("valid", .bool r.valid), ("code", .number r.code),
    ("result", .text r.result), ("description", .ofOption .text r.description),
    ("invalid_index", .ofOption .number r.index)]

def json (r : Report) : String := Json.object r.members

def inspectOption {α : Type} (f : α → String) : Option α → String
  | none => "None"
  | some a => "Some(" ++ f a ++ ")"

def inspectBool : Bool → String
  | true => "true"
  | false => "false"

def inspectKind : Kind → String
  | .topicName => "Topic"
  | .namespaceName => "Namespace"
  | .nodeName => "Node"

def inspect (r : Report) : String :=
  "Report \x7b kind: " ++ inspectKind r.kind ++
    ", valid: " ++ inspectBool r.valid ++
    ", code: " ++ r.code.repr ++
    ", result: " ++ Quoted.quote r.result ++
    ", description: " ++ inspectOption Quoted.quote r.description ++
    ", invalid_index: " ++ inspectOption Nat.repr r.index ++
    ", too_long: " ++ inspectBool r.tooLong ++ " \x7d"

end Report
end RosNames
