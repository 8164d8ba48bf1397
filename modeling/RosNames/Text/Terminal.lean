import RosNames.Text.Utf8

/-!
# What is left of a text on a plain terminal

Text from outside may hold control characters and escape sequences, which would let it change the
look of a message it is quoted in. They are taken out: of the controls only line breaks, tabs and
form feeds remain, and of a sequence nothing. An escape begins a sequence in every state, and cancel
and substitute end one.
-/

namespace RosNames.Terminal

/-- What the characters so far have begun: nothing, an escape, perhaps with intermediate characters, a
control sequence, or a string. A command for the operating system is a string that a bell ends. The
header of a device control string has parameters and then marks, and its payload is read as that of
any other string. -/
inductive State
  | ground
  | escape
  | intermediate
  | sequence
  | command
  | header
  | parameters
  | marks
  | payload
  deriving DecidableEq, Repr

def isLayout (c : Char) : Bool := c == '\t' || c == '\n' || c == '\x0c' || c == '\r'

def isGraphic (c : Char) : Bool := 0x20 ≤ c.toNat && c.toNat != 0x7f

def isAsciiFrom (first : Nat) (c : Char) : Bool := first ≤ c.toNat && c.toNat < 0x7f

def holdsTerminator (c : Char) : Bool :=
  -- the byte ends a string even inside a character
  (String.utf8EncodeChar c).contains 0x9c

def afterEscape (c : Char) : State :=
  if c = '[' then .sequence
  else if c = ']' then .command
  else if c = 'P' then .header
  else if c = 'X' || c = '^' || c = '_' then .payload
  else if isAsciiFrom 0x30 c then .ground
  else if isAsciiFrom 0x20 c then .intermediate
  else .escape

def afterHeader (c : Char) : State :=
  if isAsciiFrom 0x40 c then .payload
  else if isAsciiFrom 0x30 c then .parameters
  else if isAsciiFrom 0x20 c then .marks
  else .header

/-- The state after a character, and whether the character remains. Layout ends an unfinished
sequence, though not a string. -/
def step (s : State) (c : Char) : State × Bool :=
  if c = '\x1b' then (.escape, false)
  else if c = '\x18' || c = '\x1a' then (.ground, false)
  else match s with
    | .ground => (.ground, isGraphic c || isLayout c)
    | .escape => if isLayout c then (.ground, true) else (afterEscape c, false)
    | .intermediate =>
      if isLayout c then (.ground, true)
      else (if isAsciiFrom 0x30 c then .ground else .intermediate, false)
    | .sequence =>
      if isLayout c then (.ground, true)
      else (if isAsciiFrom 0x40 c then .ground else .sequence, false)
    | .command => (if c = '\x07' then .ground else .command, false)
    | .header => (afterHeader c, false)
    | .parameters =>
      (if isAsciiFrom 0x3c c then .payload
        else if isAsciiFrom 0x20 c && !isAsciiFrom 0x30 c then .marks
        else .parameters, false)
    | .marks => (if isAsciiFrom 0x30 c then .payload else .marks, false)
    | .payload => (if holdsTerminator c then .ground else .payload, false)

def advance (p : State × List Char) (c : Char) : State × List Char :=
  let q := step p.1 c
  (q.1, if q.2 then c :: p.2 else p.2)

def plain (text : String) : String :=
  String.ofList (text.toList.foldl advance (.ground, [])).2.reverse

/-- The text up to its first line break, which may be a pair. -/
def firstLine (text : String) : String :=
  let line := text.toList.takeWhile (· != '\n')
  if text.toList.contains '\n' && line.getLast? == some '\r' then String.ofList line.dropLast
  else String.ofList line

end RosNames.Terminal
