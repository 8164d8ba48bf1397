/-!
# Events and the record of a computation

A computation that reports what it does returns its value together with the events, in the order in
which they happened.
-/

namespace RosNames

inductive Level
  | trace
  | debug
  | info
  | warn
  | error
  deriving DecidableEq, Repr

namespace Level

def label : Level → String
  | trace => "TRACE"
  | debug => "DEBUG"
  | info => "INFO"
  | warn => "WARN"
  | error => "ERROR"

/-- How much is shown by one who asks for the level: its own events and all graver ones. -/
def verbosity : Level → Nat
  | error => 1
  | warn => 2
  | info => 3
  | debug => 4
  | trace => 5

end Level

/-- A message, and parts of the event that are recorded beside it, each under a name. -/
structure Event where
  level : Level
  message : String
  parts : List (String × String) := []
  deriving DecidableEq, Repr

namespace Event

def text (e : Event) : String :=
  e.message ++ String.join (e.parts.map fun p => " " ++ p.1 ++ "=" ++ p.2)

def partNames (e : Event) : List String := "message" :: e.parts.map Prod.fst

end Event

structure Logged (α : Type) where
  value : α
  events : List Event
  deriving DecidableEq, Repr

end RosNames
