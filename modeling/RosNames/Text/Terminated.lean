import RosNames.Text.Utf8

/-!
# Texts that end at a zero byte

Foreign callers hand over and receive a text as a buffer without a length: the text ends before the
first zero byte.
-/

namespace RosNames.Terminated

def write (text : String) : Bytes := Utf8.encode text ++ [0]

/-- The bytes before the first zero byte, whatever comes after it. -/
def read (buffer : Bytes) : Bytes := buffer.takeWhile (· != 0)

end RosNames.Terminated
