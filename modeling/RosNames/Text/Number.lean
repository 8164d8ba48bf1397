/-!
# Numbers as a person writes them
-/

namespace RosNames

def unsigned : List Char → List Char
  | '+' :: rest => rest
  | '-' :: rest => rest
  | text => text

def isDigits (text : List Char) : Bool := !text.isEmpty && text.all Char.isDigit

/-- Digits with at most one point, which need not have digits on both sides. -/
def isFixed (text : List Char) : Bool :=
  let whole := text.takeWhile (· != '.')
  match text.dropWhile (· != '.') with
  | [] => isDigits whole
  | _ :: fraction => isDigits (whole ++ fraction)

/-- A decimal number with or without an exponent, or one of the words for infinity and for what is
no number. -/
def isNumber (text : List Char) : Bool :=
  let size := unsigned text
  let isMark := fun c => c == 'e' || c == 'E'
  ["inf", "infinity", "nan"].contains (String.ofList (size.map Char.toLower)) ||
    isFixed (size.takeWhile (!isMark ·)) &&
      match size.dropWhile (!isMark ·) with
      | [] => true
      | _ :: exponent => isDigits (unsigned exponent)

end RosNames
