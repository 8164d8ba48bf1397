import RosNames.Text.Pattern.Mode

/-!
# The atoms of patterns

An atom is what one character, or a backslash with what belongs to it, stands for. Patterns know
no properties of characters: neither their cases nor the letters, digits and blanks of all scripts.
So an atom that depends on them can be written but has no meaning among characters, and among bytes
it means the ASCII ones. Nor may an atom match a part of a character only.
-/

namespace RosNames.Pattern

/-- A character, an octet if two hexadecimal digits gave it; anything but the end of a line; the
digits, blanks or word characters, or all others; and where a line or the text, or a word, begins or
ends. -/
inductive Atom where
  | char (c : Char) (octet : Bool)
  | any
  | family (complement : Bool)
  | edge
  | wordEdge
  deriving DecidableEq, Repr

namespace Atom

def standsAlone (m : Mode) : Atom → Bool
  | char c octet => if m.characters then !m.caseless else !octet || c.toNat < 0x80
  | any => m.characters
  | family complement => !m.characters && !complement
  | edge => true
  | wordEdge => !m.characters

def isMember (m : Mode) : Atom → Bool
  | char c _ => if m.characters then !m.caseless else c.toNat < 0x80
  | family complement => !m.characters && !complement
  | _ => false

def isRange (m : Mode) : Atom → Atom → Bool
  | char a octet, char b octet' =>
    a ≤ b && (char a octet).isMember m && (char b octet').isMember m
  | _, _ => false

end Atom

def hexDigit? (c : Char) : Option Nat :=
  if c.isDigit then some (c.toNat - '0'.toNat)
  else if 'a' ≤ c && c ≤ 'f' then some (c.toNat - 'a'.toNat + 10)
  else if 'A' ≤ c && c ≤ 'F' then some (c.toNat - 'A'.toNat + 10)
  else none

def hexadecimal? (m : Mode) : Nat → Nat → List Char → Option (Nat × List Char)
  | 0, value, text => some (value, text)
  | count + 1, value, text =>
    match m.skip text with
    | [] => none
    | c :: rest => (hexDigit? c).bind fun d => hexadecimal? m count (16 * value + d) rest

/-- How many digits a letter announces. -/
def hexadecimals : List (Char × Nat) := [('x', 2), ('u', 4), ('U', 8)]

def control : List (Char × Char) :=
  [('a', '\x07'), ('f', '\x0c'), ('n', '\n'), ('r', '\x0d'), ('t', '\t'), ('v', '\x0b')]

def escaped? (c : Char) : Option Atom :=
  if ['d', 's', 'w'].contains c then some (.family false)
  else if ['D', 'S', 'W'].contains c then some (.family true)
  else if ['A', 'z'].contains c then some .edge
  else if ['b', 'B', '<', '>'].contains c then some .wordEdge
  else if c.isAlphanum then (control.lookup c).map (.char · false)
  else if c.toNat < 0x80 then some (.char c false)
  else none

def escape? (m : Mode) : List Char → Option (Atom × List Char)
  | [] => none
  | c :: rest =>
    match hexadecimals.lookup c with
    | some count => do
      let (value, rest) ← hexadecimal? m count 0 rest
      -- a number that is no code point gives another character
      let c := Char.ofNat value
      if c.toNat = value then some (.char c (count == 2), rest) else none
    | none => (escaped? c).map (·, rest)

def atom? (m : Mode) : List Char → Option (Atom × List Char)
  | [] => none
  | '\\' :: rest => escape? m rest
  | c :: rest => some (.char c false, rest)

end RosNames.Pattern
