import RosNames.Text.Pattern.Atom

/-!
# Sets between brackets

A set lists its members: atoms, ranges, named classes and sets again. Doubled signs between members
form intersections, differences and symmetric differences, from left to right. How deep a set nests
is told with it.
-/

namespace RosNames.Pattern

/-- Things side by side: how many they are, and how deep the deepest of them nests. -/
structure Row where
  size : Nat := 0
  deepest : Nat := 0
  deriving DecidableEq, Repr

namespace Row

def push (r : Row) (depth : Nat) : Row := ⟨r.size + 1, max r.deepest depth⟩

/-- A row of one is its only item; longer ones nest their items. -/
def depth (r : Row) : Nat := if r.size ≤ 1 then r.deepest else r.deepest + 1

end Row

def classes : List String :=
  ["alnum", "alpha", "ascii", "blank", "cntrl", "digit", "graph", "lower", "print", "punct",
    "space", "upper", "word", "xdigit"]

def afterClassName? (text : List Char) : Option (List Char) :=
  match text.dropWhile (· != ':') with
  | ':' :: ']' :: rest =>
    if classes.contains (String.ofList (text.takeWhile (· != ':'))) then some rest else none
  | _ => none

def namedClass? : List Char → Option (Bool × List Char)
  | ':' :: '^' :: rest => (afterClassName? rest).map (true, ·)
  | ':' :: rest => (afterClassName? rest).map (false, ·)
  | _ => none

def isClass (m : Mode) (complement : Bool) : Bool :=
  -- the classes are ASCII, so among bytes only the complements match parts of characters
  if m.characters then !m.caseless else !complement

def afterRange? (m : Mode) (text : List Char) : Option (List Char) := do
  let (first, rest) ← atom? m text
  let single := if first.isMember m then some rest else none
  match m.skip rest with
  | '-' :: next =>
    if m.peek? next = some ']' || m.peek? next = some '-' then single
    else
      let (last, rest) ← atom? m (m.skip next)
      if first.isRange m last then some rest else none
  | _ => single

/-- A set of which some members were read: the depth of the operand that the last sign ended, and
the members since. The set is fresh while only dashes were read. Then a dash is a member, and a
bracket is one if it comes first. -/
structure OpenSet where
  operand : Option Nat := none
  members : Row := {}
  fresh : Bool := true
  deriving DecidableEq, Repr

namespace OpenSet

def push (s : OpenSet) (depth : Nat) : OpenSet :=
  { s with members := s.members.push depth, fresh := false }

def depth (s : OpenSet) : Nat :=
  match s.operand with
  | none => s.members.depth
  | some left => max left s.members.depth + 1

def operator (s : OpenSet) : OpenSet := { operand := some s.depth, fresh := false }

end OpenSet

def afterCaret? (m : Mode) (text : List Char) : Option (List Char) :=
  match m.skip text with
  -- among bytes a complement would match parts of characters
  | '^' :: rest => if m.characters then some rest else none
  | rest => some rest

/-- The depth of a set from its members on, and the text behind it. Every step reads a character, so
the length of the text is enough fuel. -/
def set? (m : Mode) : Nat → OpenSet → List Char → Option (Nat × List Char)
  | 0, _, _ => none
  | fuel + 1, s, text =>
    match m.skip text with
    | [] => none
    | c :: rest =>
      if s.fresh && (c = '-' || c = ']' && s.members.size = 0) then
        if (Atom.char c false).isMember m then
          set? m fuel { s.push 0 with fresh := c == '-' } rest
        else none
      else if c = ']' then some (s.depth + 1, rest)
      else if c = '[' then
        match namedClass? rest with
        | some (complement, rest) =>
          if isClass m complement then set? m fuel (s.push 0) rest else none
        | none => do
          let (depth, rest) ← set? m fuel {} (← afterCaret? m rest)
          set? m fuel (s.push depth) rest
      else if ['&', '-', '~'].contains c && rest.head? = some c then
        set? m fuel s.operator rest.tail
      else do set? m fuel (s.push 0) (← afterRange? m (c :: rest))

def brackets? (m : Mode) (text : List Char) : Option (Nat × List Char) := do
  set? m (text.length + 1) {} (← afterCaret? m text)

end RosNames.Pattern
