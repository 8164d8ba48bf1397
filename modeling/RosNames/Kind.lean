import RosNames.Outcome

/-!
# The three kinds of name

Topic names and namespaces are paths, node names are tokens. A namespace may also be the slash
alone, and leaves two bytes of the limit on topic names free, enough for the shortest topic below
it. Each kind describes its outcomes in words of its own.
-/

namespace RosNames

inductive Kind
  | topicName
  | namespaceName
  | nodeName
  deriving DecidableEq, Repr

def topicGrammar : Grammar where
  shape := .path
  maxLength := 256
  allowsSeparator := true
  allowsRoot := false

def namespaceGrammar : Grammar :=
  { topicGrammar with
    maxLength := topicGrammar.maxLength - 2
    allowsRoot := true
    maxLength_pos := by decide }

def nodeGrammar : Grammar where
  shape := .token
  maxLength := 255
  allowsSeparator := false
  allowsRoot := false

namespace Kind

/-- Names are topic names unless another kind is asked for. -/
instance : Inhabited Kind := ⟨topicName⟩

def all : List Kind := [topicName, namespaceName, nodeName]

def grammar : Kind → Grammar
  | topicName => topicGrammar
  | namespaceName => namespaceGrammar
  | nodeName => nodeGrammar

abbrev shape (k : Kind) : Shape := k.grammar.shape

def keyword : Kind → String
  | topicName => "topic"
  | namespaceName => "namespace"
  | nodeName => "node"

def title : Kind → String
  | topicName => "topic name"
  | namespaceName => "namespace"
  | nodeName => "node name"

def describe : (k : Kind) → Outcome k.shape → Option String
  | topicName, .valid => none
  | topicName, .emptyName => some "topic name must not be empty string"
  | topicName, .relative => some "topic name must be absolute, it must lead with a '/'"
  | topicName, .trailingSlash => some "topic name must not end with a '/'"
  | topicName, .unallowedByte =>
    some "topic name must not contain characters other than alphanumerics, '_', or '/'"
  | topicName, .repeatedSlash => some "topic name must not contain repeated '/'"
  | topicName, .numericToken =>
    some "topic name must not have a token that starts with a number"
  | topicName, .tooLong => some "topic length should not exceed '256'"
  | namespaceName, .valid => none
  | namespaceName, .emptyName => some "namespace must not be empty"
  | namespaceName, .relative => some "namespace must be absolute, it must lead with a '/'"
  | namespaceName, .trailingSlash => some "namespace must not end with a '/', unless only a '/'"
  | namespaceName, .unallowedByte =>
    some "namespace must not contain characters other than alphanumerics, '_', or '/'"
  | namespaceName, .repeatedSlash => some "namespace must not contain repeated '/'"
  | namespaceName, .numericToken =>
    some "namespace must not have a token that starts with a number"
  | namespaceName, .tooLong => some "namespace should not exceed '254'"
  | nodeName, .valid => none
  | nodeName, .emptyName => some "node name must not be empty"
  | nodeName, .unallowedByte =>
    some "node name must not contain characters other than alphanumerics or '_'"
  | nodeName, .leadingDigit => some "node name must not start with a number"
  | nodeName, .tooLong => some "node name length should not exceed '255'"

theorem describe_eq_none_iff (k : Kind) (o : Outcome k.shape) :
    k.describe o = none ↔ o = .valid := by
  cases k <;> cases o <;> simp [describe]

/-- What is said of a code that no outcome of the kind has. -/
def unknownCode : Kind → String
  | topicName => "unknown result code for rmw topic name validation"
  | namespaceName => "unknown result code for namespace validation"
  | nodeName => "unknown result code for rmw node name validation"

def describeCode (k : Kind) (c : Int) : Option String :=
  match Outcome.ofCode? k.shape c with
  | some o => k.describe o
  | none => some k.unknownCode

end Kind
end RosNames
