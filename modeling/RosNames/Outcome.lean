import RosNames.Grammar

/-!
# Outcomes and their codes

The outcome of checking a name is one of a closed list of codes, counted from 0 for a valid name.
The two shapes have lists of their own: a path has seven ways to be wrong and a token four. A fault
that a shape has no outcome of its own for falls under the nearest one.
-/

namespace RosNames

inductive Outcome : Shape → Type
  | valid {s : Shape} : Outcome s
  | emptyName {s : Shape} : Outcome s
  | relative : Outcome .path
  | trailingSlash : Outcome .path
  | unallowedByte {s : Shape} : Outcome s
  | repeatedSlash : Outcome .path
  | numericToken : Outcome .path
  | leadingDigit : Outcome .token
  | tooLong {s : Shape} : Outcome s
  deriving DecidableEq, Repr

namespace Outcome

/-- The outcomes of a shape in the order of their codes. -/
def all : (s : Shape) → List (Outcome s)
  | .path => [valid, emptyName, relative, trailingSlash, unallowedByte, repeatedSlash,
      numericToken, tooLong]
  | .token => [valid, emptyName, unallowedByte, leadingDigit, tooLong]

def code : {s : Shape} → Outcome s → Nat
  | _, valid => 0
  | _, emptyName => 1
  | _, relative => 2
  | _, trailingSlash => 3
  | .path, unallowedByte => 4
  | .token, unallowedByte => 2
  | _, repeatedSlash => 5
  | _, numericToken => 6
  | _, leadingDigit => 3
  | .path, tooLong => 7
  | .token, tooLong => 4

def ofCode? (s : Shape) (c : Int) : Option (Outcome s) := (all s).find? fun o => o.code == c

def label {s : Shape} : Outcome s → String
  | valid => "Valid"
  | emptyName => "IsEmptyString"
  | relative => "NotAbsolute"
  | trailingSlash => "EndsWithForwardSlash"
  | unallowedByte => "ContainsUnallowedCharacters"
  | repeatedSlash => "ContainsRepeatedForwardSlash"
  | numericToken => "NameTokenStartsWithNumber"
  | leadingDigit => "StartsWithNumber"
  | tooLong => "TooLong"

def isValid {s : Shape} : Outcome s → Bool
  | valid => true
  | _ => false

def isTooLong {s : Shape} : Outcome s → Bool
  | tooLong => true
  | _ => false

/-- The outcome that stands for a fault. A token has no slashes to misplace, so for it each of
their faults is an unallowed byte. -/
def ofFault : (s : Shape) → Fault → Outcome s
  | _, .emptyName => emptyName
  | .path, .relative => relative
  | .path, .trailingSlash => trailingSlash
  | _, .unallowedByte => unallowedByte
  | .path, .repeatedSlash => repeatedSlash
  | .path, .numericToken => numericToken
  | .path, .leadingDigit => numericToken
  | .token, .leadingDigit => leadingDigit
  | .token, .numericToken => leadingDigit
  | .token, .relative => unallowedByte
  | .token, .trailingSlash => unallowedByte
  | .token, .repeatedSlash => unallowedByte
  | _, .tooLong => tooLong

theorem isValid_iff {s : Shape} (o : Outcome s) : o.isValid ↔ o = valid := by
  cases o <;> simp [isValid]

theorem isTooLong_iff {s : Shape} (o : Outcome s) : o.isTooLong ↔ o = tooLong := by
  cases o <;> simp [isTooLong]

theorem ofCode?_code {s : Shape} (o : Outcome s) : ofCode? s o.code = some o := by
  cases s <;> cases o <;> rfl

end Outcome
end RosNames
