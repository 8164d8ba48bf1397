import RosNames.Cli.Settings
import RosNames.Report

/-!
# Checking the names

Each name is checked by itself and adds a block of output, its events and at most one to the number
of rejected names; the order of the names is the order of the blocks. A line of text can be padded
to a limited width only. A caret that would stand beyond it interrupts the whole run.
-/

namespace RosNames.Cli

/-- What a run has written, how many names it rejected, and what it logged. -/
structure Summary where
  output : String
  rejected : Nat
  events : List Event
  deriving DecidableEq, Repr

/-- What a run had written and logged when a line could not be padded. -/
structure Interruption where
  output : String
  events : List Event
  deriving DecidableEq, Repr

def Interruption.message : String := "Formatting argument out of range"

/-- The greatest width to which a line is padded. -/
def maxColumns : Nat := 65535

/-- The caret, with a space for each byte before the one to blame. -/
def caretLine (index : Nat) : String := String.ofList (List.replicate index ' ' ++ ['^']) ++ "\n"

def validLine (name : String) (k : Kind) : String := name ++ ": valid " ++ k.keyword ++ "\n"

def faultLine (name reason : String) (index : Nat) : String :=
  name ++ ": " ++ reason ++ " (index " ++ index.repr ++ ")\n"

/-- What is written about a name as text, or so much of it as comes before the caret that cannot be
placed. An empty name has nothing to point at. -/
def textBlock (name : String) (r : Report) : Except String String :=
  match r.description, r.index with
  | some reason, some index =>
    let line := faultLine name reason index
    if index < (Utf8.encode name).length then
      if index + 1 ≤ maxColumns then .ok (line ++ name ++ "\n" ++ caretLine index)
      else .error (line ++ name ++ "\n")
    else .ok line
  | _, _ => .ok (validLine name r.kind)

def jsonLine (name : String) (r : Report) : String :=
  Json.object (("name", .text name) :: r.members) ++ "\n"

namespace Settings

variable (s : Settings)

def block (name : String) (r : Report) : Except String String :=
  if s.json then .ok (jsonLine name r) else textBlock name r

theorem block_of_json {s : Settings} (h : s.json) (name : String) (r : Report) :
    s.block name r = .ok (jsonLine name r) := if_pos h

theorem block_of_not_json {s : Settings} (h : s.json = false) (name : String) (r : Report) :
    s.block name r = textBlock name r := by
  rw [block, h]
  rfl

def excuses (r : Report) : Bool := r.tooLong && s.allowTooLong

def traceEvent (name : String) (r : Report) : Event where
  level := .trace
  message := "validated " ++ name
  parts := [("report", r.inspect)]

def warnEvent (name : String) (r : Report) : Event where
  level := .warn
  message := r.kind.keyword ++ " '" ++ name ++ "' is " ++ (Utf8.encode name).length.repr ++
    " bytes long, accepting anyway"

def checkName (name : String) : Except Interruption Summary :=
  let r := s.kind.report (Utf8.encode name)
  match s.block name r with
  | .error written => .error ⟨written, [traceEvent name r]⟩
  | .ok output =>
    if r.valid then .ok ⟨output, 0, [traceEvent name r]⟩
    else if s.excuses r then .ok ⟨output, 0, [traceEvent name r, warnEvent name r]⟩
    else .ok ⟨output, 1, [traceEvent name r]⟩

end Settings

def Summary.append (a b : Summary) : Summary :=
  ⟨a.output ++ b.output, a.rejected + b.rejected, a.events ++ b.events⟩

def Interruption.after (i : Interruption) (a : Summary) : Interruption :=
  ⟨a.output ++ i.output, a.events ++ i.events⟩

namespace Settings

variable (s : Settings)

def checkNames : List String → Except Interruption Summary
  | [] => .ok ⟨"", 0, []⟩
  | name :: rest =>
    match s.checkName name with
    | .error i => .error i
    | .ok a =>
      match checkNames rest with
      | .error i => .error (i.after a)
      | .ok b => .ok (a.append b)

def tallyEvents (rejected total : Nat) : List Event :=
  if 0 < rejected then
    [{ level := .debug, message := rejected.repr ++ " of " ++ total.repr ++ " names rejected" }]
  else []

def run : Except Interruption Summary :=
  (s.checkNames s.names).map fun t =>
    { t with events := t.events ++ tallyEvents t.rejected s.names.length }

end Settings
end RosNames.Cli
