import RosNames.Text.Blank

/-!
# How a part of a pattern is read

Flags inside a pattern switch between readings of what follows them. Of the seven flags three bear
on whether a pattern is well formed; the others only change what it matches.
-/

namespace RosNames.Pattern

/-- White space and remarks may be layout, letters may match in either case, and what is matched is
characters or else bytes. -/
structure Mode where
  layout : Bool := false
  caseless : Bool := false
  characters : Bool := true
  deriving DecidableEq, Repr

def skipLayout (inRemark : Bool) : List Char → List Char
  | [] => []
  | c :: rest =>
    -- a remark ends with its line
    if inRemark then skipLayout (c != '\n') rest
    else if isBlank c then skipLayout false rest
    else if c = '#' then skipLayout true rest
    else c :: rest

namespace Mode

def skip (m : Mode) (text : List Char) : List Char :=
  if m.layout then skipLayout false text else text

def peek? (m : Mode) (text : List Char) : Option Char :=
  if m.layout then
    match text.dropWhile isBlank with
    -- only the mark of one remark is looked past, not the remark
    | '#' :: rest => (rest.dropWhile isBlank).head?
    | rest => rest.head?
  else text.head?

def flags : List Char := ['i', 'm', 's', 'u', 'x', 'R', 'U', '-']

def setting (letters : List Char) (flag : Char) (before : Bool) : Bool :=
  if letters.contains flag then (letters.takeWhile (· != '-')).contains flag else before

/-- Change the mode by the flags up to a colon or a closing parenthesis, and go on from there. No
flag is given twice, and the sign is followed by a flag. -/
def change? (m : Mode) (text : List Char) : Option (Mode × List Char) :=
  let isEnd := fun c => c == ':' || c == ')'
  let letters := text.takeWhile (!isEnd ·)
  let rest := text.dropWhile (!isEnd ·)
  if rest.isEmpty || !letters.all flags.contains || letters.getLast? = some '-' ||
      !decide letters.Nodup then none
  else some
    ({ layout := setting letters 'x' m.layout
       caseless := setting letters 'i' m.caseless
       characters := setting letters 'u' m.characters }, rest)

end Mode
end RosNames.Pattern
