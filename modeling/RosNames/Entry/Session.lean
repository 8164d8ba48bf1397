import RosNames.Entry.Call

/-!
# Sessions of a foreign caller

A caller makes any number of calls with the same two variables, assigns to them in between as it
likes, and asks for the text of the code that it finds in the result variable.
-/

namespace RosNames.Entry

inductive Step
  | assign (result : Option Int) (index : Option Nat)
  | describe (kind : Kind)
  | call (c : Call)
  deriving DecidableEq, Repr

inductive Reply
  | assigned
  | described (text : Option Bytes)
  | returned (code : ReturnCode) (events : List Event)
  deriving DecidableEq, Repr

def Step.run (vars : Variables) : Step → Reply × Variables
  | assign result index => (.assigned, ⟨result.getD vars.result, index.getD vars.index⟩)
  | describe kind => (.described (resultText kind vars.result), vars)
  | call c =>
    let answer := c.run vars
    (.returned answer.value.1 answer.events, answer.value.2)

/-- The replies in order, each with the variables as the step leaves them. -/
def transcript (vars : Variables) : List Step → List (Reply × Variables)
  | [] => []
  | s :: rest => s.run vars :: transcript (s.run vars).2 rest

def finish (vars : Variables) (steps : List Step) : Variables :=
  steps.foldl (fun vars s => (s.run vars).2) vars

end RosNames.Entry
