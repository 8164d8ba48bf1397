/-!
# Errors

A name that breaks its grammar is an outcome and no error. It becomes one only for a caller who
insists on a valid name.
-/

namespace RosNames

inductive NameError
  /-- The caller left out something that the call needs. -/
  | invalidArgument (reason : String)
  | invalidName (kind reason : String) (index : Nat)
  deriving DecidableEq, Repr

def NameError.message : NameError → String
  | invalidArgument reason => "invalid argument: " ++ reason
  | invalidName kind reason index =>
    "invalid " ++ kind ++ ": " ++ reason ++ ", at index " ++ index.repr

end RosNames
