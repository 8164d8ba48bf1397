import RosNames.Report
import RosNames.Text.Terminated

/-!
# Calls of the entry points

A foreign caller passes a buffer and lends two variables of its own for the answer. It may leave
out the buffer or either variable. Without a buffer or without a variable for the result the call
is refused and touches nothing; an index is only written for a name that is not valid, so what the
variable held before survives every other call.
-/

namespace RosNames.Entry

inductive ReturnCode
  | ok
  | error
  | invalidArgument
  deriving DecidableEq, Repr

namespace ReturnCode

def value : ReturnCode → Nat
  | ok => 0
  | error => 1
  | invalidArgument => 11

def ofError : NameError → ReturnCode
  | .invalidArgument _ => invalidArgument
  | .invalidName .. => error

end ReturnCode

/-- The caller's variables for the result code and for the index. -/
structure Variables where
  result : Int
  index : Nat
  deriving DecidableEq, Repr

/-- How much of the buffer is the name: up to its first zero byte, or so many bytes. -/
inductive Extent
  | terminated
  | sized (length : Nat)
  deriving DecidableEq, Repr

def Extent.name : Extent → Bytes → Bytes
  | terminated, buffer => Terminated.read buffer
  | sized length, buffer => buffer.take length

structure Call where
  kind : Kind
  buffer : Option Bytes
  extent : Extent
  lendsResult : Bool
  lendsIndex : Bool
  deriving DecidableEq, Repr

def functionName : Kind → String
  | .topicName => "rmw_validate_full_topic_name"
  | .namespaceName => "rmw_validate_namespace"
  | .nodeName => "rmw_validate_node_name"

def resultText (k : Kind) (code : Int) : Option Bytes := (k.describeCode code).map Terminated.write

namespace Call

variable (c : Call)

/-- The name to check, unless something that the call needs was left out. -/
def name : Except NameError Bytes :=
  match c.buffer with
  | none => .error (.invalidArgument "name argument is null")
  | some buffer =>
    if c.lendsResult then .ok (c.extent.name buffer)
    else .error (.invalidArgument "validation_result argument is null")

def traceEvent (name : Bytes) (v : Validation c.kind) : Event where
  level := .trace
  message := functionName c.kind ++ ": " ++ Quoted.quote (Utf8.lossy name) ++ " -> " ++
    v.outcome.label ++ " at " ++ Report.inspectOption Nat.repr v.index

def errorEvent (e : NameError) : Event where
  level := .error
  message := functionName c.kind ++ ": " ++
    match e with
    | .invalidArgument reason => reason
    | .invalidName .. => e.message

def store (v : Validation c.kind) (vars : Variables) : Variables where
  result := v.outcome.code
  index := if c.lendsIndex then v.index.getD vars.index else vars.index

def run (vars : Variables) : Logged (ReturnCode × Variables) :=
  match c.name with
  | .error e => { value := (.ofError e, vars), events := [c.errorEvent e] }
  | .ok name =>
    let v := c.kind.validate name
    { value := (.ok, c.store v vars), events := [c.traceEvent name v] }

end Call
end RosNames.Entry
