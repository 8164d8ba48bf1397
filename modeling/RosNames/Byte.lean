/-!
# The bytes of a name

Names are checked as they are stored, byte by byte. The classes below are fixed ranges of byte
values, so neither a locale nor an encoding has a say in them: every byte of a character outside
ASCII is in none of the classes.
-/

namespace RosNames

/-- A name, an argument or a buffer: any bytes, in any number. -/
abbrev Bytes := List UInt8

namespace Byte

/-- The slash, which stands before every token of a fully qualified name. -/
def separator : UInt8 := 0x2f

def isSeparator (b : UInt8) : Bool := b == separator

def isDigit (b : UInt8) : Bool := 0x30 ≤ b && b ≤ 0x39

def isAlphanumeric (b : UInt8) : Bool :=
  isDigit b || (0x41 ≤ b && b ≤ 0x5a) || (0x61 ≤ b && b ≤ 0x7a)

def isTokenByte (b : UInt8) : Bool := isAlphanumeric b || b == 0x5f

end Byte
end RosNames
