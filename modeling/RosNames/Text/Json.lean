/-!
# Objects written as JSON

A flat object on one line without spaces. In a string only the quote, the backslash and the
characters below U+0020 are escaped, so a line break in a value never breaks the line.
-/

namespace RosNames.Json

inductive Value
  | null
  | bool (b : Bool)
  | number (n : Nat)
  | text (s : String)
  deriving DecidableEq, Repr

/-- Absent values are `null`. -/
def Value.ofOption {α : Type} (f : α → Value) : Option α → Value
  | none => null
  | some a => f a

/-- Two hexadecimal digits suffice below U+0020. -/
def controlEscape (c : Char) : List Char :=
  ['\\', 'u', '0', '0', Nat.digitChar (c.toNat / 16), Nat.digitChar (c.toNat % 16)]

def escapeChar (c : Char) : List Char :=
  if c = '"' then ['\\', '"']
  else if c = '\\' then ['\\', '\\']
  else if c = '\x08' then ['\\', 'b']
  else if c = '\x0c' then ['\\', 'f']
  else if c = '\n' then ['\\', 'n']
  else if c = '\r' then ['\\', 'r']
  else if c = '\t' then ['\\', 't']
  else if c.toNat < 0x20 then controlEscape c
  else [c]

def quote (s : String) : String := String.ofList ('"' :: s.toList.flatMap escapeChar ++ ['"'])

def Value.render : Value → String
  | null => "null"
  | bool true => "true"
  | bool false => "false"
  | number n => n.repr
  | text s => quote s

def member (m : String × Value) : String := quote m.1 ++ ":" ++ m.2.render

def object (members : List (String × Value)) : String :=
  "\x7b" ++ ",".intercalate (members.map member) ++ "\x7d"

end RosNames.Json
