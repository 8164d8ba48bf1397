import RosNames.Byte

/-!
# Grammars and the first fault of a name

A grammar is a shape, a limit on the length and two switches. Its shape lists the rules in the
order in which they are applied; each rule looks at the whole name and says where the name first
breaks it, and the first rule that is broken decides. The limit on the length comes last in either
list, so a name is too long only if nothing else is wrong with it.
-/

namespace RosNames

inductive Fault
  | emptyName
  | relative
  | trailingSlash
  | unallowedByte
  | repeatedSlash
  | numericToken
  | leadingDigit
  | tooLong
  deriving DecidableEq, Repr

/-- A fault, at the byte that is to blame. -/
structure Finding where
  fault : Fault
  index : Nat
  deriving DecidableEq, Repr

inductive Rule
  | nonempty
  | absolute
  | noTrailingSlash
  | allowedBytes
  | tokenStarts
  | noLeadingDigit
  | withinLimit
  deriving DecidableEq, Repr

/-- A name is either a path of tokens, each after a slash, or a single token. -/
inductive Shape
  | path
  | token
  deriving DecidableEq, Repr

namespace Shape

def rules : Shape → List Rule
  | path => [.nonempty, .absolute, .noTrailingSlash, .allowedBytes, .tokenStarts, .withinLimit]
  | token => [.nonempty, .allowedBytes, .noLeadingDigit, .withinLimit]

end Shape

/-- The switches let the slash stand in a name, and be a name by itself. -/
structure Grammar where
  shape : Shape
  maxLength : Nat
  allowsSeparator : Bool
  allowsRoot : Bool
  maxLength_pos : 0 < maxLength := by decide
  deriving DecidableEq, Repr

/-- The first token of a path that is empty or begins with a digit: the position, counted from
`i`, of a slash or digit that follows a slash. -/
def tokenStartFinding? (i : Nat) : Bytes → Option Finding
  | a :: b :: rest =>
    if Byte.isSeparator a then
      if Byte.isSeparator b then some ⟨.repeatedSlash, i + 1⟩
      else if Byte.isDigit b then some ⟨.numericToken, i + 1⟩
      else tokenStartFinding? (i + 1) (b :: rest)
    else tokenStartFinding? (i + 1) (b :: rest)
  | _ => none

namespace Grammar

def allows (g : Grammar) (b : UInt8) : Bool :=
  Byte.isTokenByte b || (g.allowsSeparator && Byte.isSeparator b)

def breach? (g : Grammar) (name : Bytes) : Rule → Option Finding
  | .nonempty => if name.isEmpty then some ⟨.emptyName, 0⟩ else none
  | .absolute => if name.head?.any Byte.isSeparator then none else some ⟨.relative, 0⟩
  | .noTrailingSlash =>
    if name.getLast?.any Byte.isSeparator then some ⟨.trailingSlash, name.length - 1⟩ else none
  | .allowedBytes => (name.findIdx? fun b => !g.allows b).map fun i => ⟨.unallowedByte, i⟩
  | .tokenStarts => tokenStartFinding? 0 name
  | .noLeadingDigit => if name.head?.any Byte.isDigit then some ⟨.leadingDigit, 0⟩ else none
  | .withinLimit => if g.maxLength < name.length then some ⟨.tooLong, g.maxLength - 1⟩ else none

def check (g : Grammar) (name : Bytes) : Option Finding :=
  if g.allowsRoot && name == [Byte.separator] then none
  else g.shape.rules.findSome? (g.breach? name)

end Grammar
end RosNames
