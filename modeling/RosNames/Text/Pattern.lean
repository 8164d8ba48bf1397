import RosNames.Text.Alphanumeric
import RosNames.Text.Pattern.Brackets

/-!
# Patterns for values

A pattern is a regular expression: alternatives of items, which are atoms, sets, groups, and
repetitions of these. Here patterns are only checked. What is not well formed has no meaning.
-/

namespace RosNames.Pattern

/-- A parenthesis opens a group, or nothing: then it changes the mode up to the end of the group
around it. -/
inductive Opening where
  | setting (mode : Mode)
  | group (mode : Mode) (name : Option (List Char))
  deriving DecidableEq, Repr

def name? (text : List Char) : Option (List Char × List Char) :=
  match text.takeWhile (· != '>'), text.dropWhile (· != '>') with
  | c :: more, _ :: rest =>
    if (c = '_' || isAlphabetic c) &&
        more.all fun c => ['_', '.', '[', ']'].contains c || isAlphanumeric c then
      some (c :: more, rest)
    else none
  | _, _ => none

def opening? (m : Mode) (text : List Char) : Option (Opening × List Char) :=
  match m.skip text with
  | '?' :: 'P' :: '<' :: rest
  | '?' :: '<' :: rest => (name? rest).map fun (name, rest) => (.group m (some name), rest)
  -- a setting has flags, a group need not have any
  | '?' :: ')' :: _ => none
  | '?' :: rest =>
    match m.change? rest with
    | some (mode, ')' :: rest) => some (.setting mode, rest)
    | some (mode, rest) => some (.group mode none, rest.tail)
    | none => none
  | rest => some (.group m none, rest)

/-- A group of which some items were read, or the pattern as a whole. It holds the names of all
groups so far, the alternatives before the one that is being read, and how deep the last item nests,
if that may be repeated. -/
structure OpenGroup where
  mode : Mode := {}
  names : List (List Char) := []
  alternatives : Row := {}
  items : Row := {}
  last : Option Nat := none
  deriving DecidableEq, Repr

namespace OpenGroup

def push (g : OpenGroup) (depth : Nat) : OpenGroup :=
  { g with items := g.items.push depth, last := some depth }

def setMode (g : OpenGroup) (mode : Mode) : OpenGroup :=
  { g with mode := mode, items := g.items.push 0, last := none }

def repeatLast? (g : OpenGroup) : Option OpenGroup :=
  g.last.map fun depth =>
    { g with items.deepest := max g.items.deepest (depth + 1), last := some (depth + 1) }

def branch (g : OpenGroup) : OpenGroup :=
  { g with alternatives := g.alternatives.push g.items.depth, items := {}, last := none }

def depth (g : OpenGroup) : Nat := g.branch.alternatives.depth

def enter? (g : OpenGroup) (mode : Mode) (name : Option (List Char)) : Option OpenGroup :=
  if name.any g.names.contains then none
  else some { mode := mode, names := name.toList ++ g.names }

end OpenGroup

def afterLazy : List Char → List Char
  | '?' :: rest => rest
  | text => text

def itemAtom? (m : Mode) : List Char → Option (Atom × List Char)
  | '.' :: rest => some (.any, rest)
  | '^' :: rest => some (.edge, rest)
  | '$' :: rest => some (.edge, rest)
  -- a brace would begin a count, and braces end the part around a pattern, so none would close it
  | '\x7b' :: _ => none
  | text => atom? m text

/-- Read up to the parenthesis that closes the group, or to the end of the text. Every step reads a
character, so the length of the text is enough fuel. -/
def group? : Nat → OpenGroup → List Char → Option (OpenGroup × List Char)
  | 0, _, _ => none
  | fuel + 1, g, text =>
    match g.mode.skip text with
    | [] => some (g, [])
    | c :: rest =>
      if c = ')' then some (g, c :: rest)
      else if c = '|' then group? fuel g.branch rest
      else if c = '(' then do
        match ← opening? g.mode rest with
        | (.setting mode, rest) => group? fuel (g.setMode mode) rest
        | (.group mode name, rest) =>
          let (inner, rest) ← group? fuel (← g.enter? mode name) rest
          if rest.isEmpty then none
          else group? fuel ({ g with names := inner.names }.push (inner.depth + 1)) rest.tail
      else if c = '[' then do
        let (depth, rest) ← brackets? g.mode rest
        group? fuel (g.push depth) rest
      else if ['?', '*', '+'].contains c then do
        group? fuel (← g.repeatLast?) (afterLazy rest)
      else do
        let (a, rest) ← itemAtom? g.mode (c :: rest)
        if a.standsAlone g.mode then group? fuel (g.push 0) rest else none

def maxDepth : Nat := 250

def isWellFormed (text : List Char) : Bool :=
  match group? (text.length + 1) {} text with
  | some (g, []) => g.depth ≤ maxDepth
  | _ => false

end RosNames.Pattern
