import RosNames.Text.Utf8

/-!
# Single arguments

What an argument of the command line means on its own, apart from the arguments around it. Options
are known by their bytes alone: no abbreviation is understood, and case matters.
-/

namespace RosNames.Cli

inductive Flag
  | json
  | allowTooLong
  deriving DecidableEq, Repr

def Flag.all : List Flag := [.json, .allowTooLong]

def Flag.spelling : Flag → String
  | .json => "json"
  | .allowTooLong => "allow-too-long"

/-- The value may be attached to the option that chooses the kind, and is one too many at any other.
What looks like an option and is none is unexpected. All else is a name, or the value of the option
before it. -/
inductive Argument
  | kind (value : Option Bytes)
  | flag (f : Flag)
  | help
  | version
  | surplusValue (option value : String)
  | unexpected (spelling : String)
  | plain (bytes : Bytes)
  deriving DecidableEq, Repr

def dash : UInt8 := 0x2d
def equals : UInt8 := 0x3d

def endOfOptions : Bytes := [dash, dash]

namespace Argument

def bare : List (String × Argument) :=
  Flag.all.map (fun f => (f.spelling, flag f)) ++ [("help", help), ("version", version)]

def ofLong (body : Bytes) : Argument :=
  let spelling := body.takeWhile (· != equals)
  let value := (body.dropWhile (· != equals)).tail?
  if spelling = Utf8.encode "kind" then kind value
  else match bare.find? (fun o => spelling == Utf8.encode o.1), value with
    | some o, none => o.2
    | some o, some v => surplusValue o.1 (Utf8.lossy v)
    | none, _ => unexpected ("--" ++ Utf8.lossy spelling)

/-- What follows one dash: a letter, and for the kind the rest as its value. Only the first
character of what is not understood is named, or all of it if it begins with no character. -/
def ofShort (letter : UInt8) (rest : Bytes) : Argument :=
  if letter = 0x6b then
    kind (match rest with
      | [] => none
      | b :: value => some (if b = equals then value else rest))
  else if letter = 0x68 then help
  else if letter = 0x56 then version
  else match Utf8.pieces (letter :: rest) with
    | some c :: _ => unexpected ("-" ++ c.toString)
    | _ => unexpected ("-" ++ Utf8.lossy (letter :: rest))

def ofBytes (bytes : Bytes) : Argument :=
  match bytes with
  | a :: b :: rest =>
    if a != dash then plain bytes
    else if b = dash then ofLong rest
    else ofShort b rest
  | _ => plain bytes

end Argument
end RosNames.Cli
