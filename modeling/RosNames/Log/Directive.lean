import RosNames.Log
import RosNames.Text.Alphanumeric
import RosNames.Text.Blank
import RosNames.Text.Number
import RosNames.Text.Pattern
import RosNames.Text.Utf8

/-!
# Directives for the log

A directive limits what is shown of the events of a target. In full it reads
`target[span{part}]=level`; the target may be missing, the brackets may, the level may, and a
level may stand alone. The braces confine it to events with a part of that name; a value may be
asked of it, as `part=value`.

Blanks around a directive do not count when it is taken apart, but the parts are cut by position
from the text with its blanks. So a blank after a part belongs to it, and a blank in front moves
every cut.
-/

namespace RosNames.Log

/-- A part that an event must have, and perhaps the value that it must hold. -/
structure PartPattern where
  name : Bytes
  value : Option Bytes
  deriving DecidableEq, Repr

def isValue (value : Bytes) : Bool :=
  (Utf8.decode? value).any fun text => isNumber text.toList || Pattern.isWellFormed text.toList

/-- A target stands for all that begin like it. Without a limit nothing is shown. -/
structure Directive where
  target : Option Bytes := none
  span : Option Bytes := none
  part : Option PartPattern := none
  limit : Option Level := some .trace
  deriving DecidableEq, Repr

def limits : List (String × Option Level) :=
  [("off", none), ("error", some .error), ("warn", some .warn), ("info", some .info),
    ("debug", some .debug), ("trace", some .trace)]

def toLower (b : UInt8) : UInt8 := if 0x41 ≤ b && b ≤ 0x5a then b + 0x20 else b

def number? (word : Bytes) : Option Nat :=
  let digits := match word with
    | 0x2b :: rest => rest
    | _ => word
  if digits.isEmpty || !digits.all Byte.isDigit then none
  else some (digits.foldl (fun n d => n * 10 + (d.toNat - 0x30)) 0)

def limit? (word : Bytes) : Option (Option Level) :=
  match number? word with
  | some n => (limits[n]?).map Prod.snd
  | none => (limits.find? fun l => Utf8.encode l.1 == word.map toLower).map Prod.snd

namespace Delimiter

def equals : UInt8 := 0x3d
def openSpan : UInt8 := 0x5b
def closeSpan : UInt8 := 0x5d
def openPart : UInt8 := 0x7b
def closePart : UInt8 := 0x7d

end Delimiter

/-- The text of a directive as it was written, and without the blanks around it. Positions count in
the latter. -/
structure Piece where
  source : Bytes
  body : Bytes
  deriving DecidableEq, Repr

namespace Piece

variable (p : Piece)

def ofText (text : String) : Piece where
  source := Utf8.encode text
  body := Utf8.encode (String.ofList (trimBlanks text.toList))

def cut (i j : Nat) : Bytes := (p.source.drop i).take (j - i)

def seek (i : Nat) (stops : Bytes) : Nat :=
  i + ((p.body.drop i).takeWhile fun b => !stops.contains b).length

/-- The level from `i` to the end; without any, everything is shown. -/
def level? (i : Nat) : Option (Option Level) :=
  let word := p.source.drop i
  if word.isEmpty then some (some .trace) else limit? word

/-- After the brackets only a level may follow. -/
def afterSpan? (i : Nat) (d : Directive) : Option Directive :=
  match p.body[i]? with
  | none => some d
  | some b =>
    if b = Delimiter.equals then (p.level? (i + 1)).map fun limit => { d with limit := limit }
    else none

def span? (i : Nat) (target : Option Bytes) : Option Directive :=
  let j := p.seek i [Delimiter.closeSpan, Delimiter.openPart]
  match p.body[j]? with
  | none => none
  | some b =>
    if b = Delimiter.closeSpan then
      p.afterSpan? (j + 1) { target := target, span := some (p.cut i j) }
    else
      let k := p.seek (j + 1) [Delimiter.closePart]
      let inside := p.cut (j + 1) k
      let pattern : PartPattern :=
        { name := inside.takeWhile (· != Delimiter.equals)
          value := match inside.dropWhile (· != Delimiter.equals) with
            | [] => none
            | _ :: rest => some (rest.takeWhile (· != Delimiter.equals)) }
      if inside.isEmpty || !pattern.value.all isValue then none
      else if p.body[k]? = some Delimiter.closePart &&
          p.body[k + 1]? = some Delimiter.closeSpan then
        p.afterSpan? (k + 2)
          { target := target
            span := if i = j then none else some (p.cut i j)
            part := some pattern }
      else none

end Piece

/-- Targets and levels begin with a letter or number of any script, or with one of three signs. -/
def beginsWord (c : Char) : Bool := isAlphanumeric c || c == '-' || c == ':' || c == '_'

def Directive.parse? (text : String) : Option Directive :=
  let p := Piece.ofText text
  match trimBlanks text.toList with
  | [] => none
  | c :: _ =>
    if c = '[' then p.span? 1 none
    else if !beginsWord c then none
    else
      let i := p.seek 0 [Delimiter.equals, Delimiter.openSpan]
      match p.body[i]? with
      | none =>
        match limit? p.source with
        | some limit => some { limit := limit }
        | none => some { target := some p.source }
      | some b =>
        if b = Delimiter.equals then
          (p.level? (i + 1)).map fun limit => { target := some (p.cut 0 i), limit := limit }
        else p.span? (i + 1) (some (p.cut 0 i))

end RosNames.Log
