import RosNames.Byte

/-!
# Bytes as text

Bytes are read as UTF-8 one at a time. A leading byte fixes how many continuation bytes are owed
and in which range the next of them must lie; the ranges leave out overlong forms, surrogates and
everything past U+10FFFF. A byte that does not fit closes the character that was begun as one
ill-formed piece and is then read afresh, so an ill-formed piece is as long as it can be while it
still begins some character, or else is a single byte.
-/

namespace RosNames.Utf8

def encode (text : String) : Bytes := text.toList.flatMap String.utf8EncodeChar

/-- A character of which some bytes were read, with their bits as the value, and some are still
owed, the next of them between the least and the greatest that it may be. -/
structure Begun where
  owed : Nat
  low : UInt8
  high : UInt8
  value : Nat
  deriving DecidableEq, Repr

def Begun.ofByte? (b : UInt8) : Option Begun :=
  if b < 0xc2 then none
  else if b ≤ 0xdf then some ⟨1, 0x80, 0xbf, b.toNat - 0xc0⟩
  else if b = 0xe0 then some ⟨2, 0xa0, 0xbf, 0⟩
  else if b = 0xed then some ⟨2, 0x80, 0x9f, 0xd⟩
  else if b ≤ 0xef then some ⟨2, 0x80, 0xbf, b.toNat - 0xe0⟩
  else if b = 0xf0 then some ⟨3, 0x90, 0xbf, 0⟩
  else if b ≤ 0xf3 then some ⟨3, 0x80, 0xbf, b.toNat - 0xf0⟩
  else if b = 0xf4 then some ⟨3, 0x80, 0x8f, 4⟩
  else none

/-- The pieces read so far, the last one first, and the character that is under way. A piece is a
character, or nothing where bytes were ill-formed. -/
structure State where
  pieces : List (Option Char)
  begun : Option Begun
  deriving DecidableEq, Repr

def fresh (pieces : List (Option Char)) (b : UInt8) : State :=
  if b < 0x80 then ⟨some (Char.ofNat b.toNat) :: pieces, none⟩
  else match Begun.ofByte? b with
    | some p => ⟨pieces, some p⟩
    | none => ⟨none :: pieces, none⟩

def step (st : State) (b : UInt8) : State :=
  match st.begun with
  | none => fresh st.pieces b
  | some p =>
    if p.low ≤ b && b ≤ p.high then
      let value := p.value * 0x40 + (b.toNat - 0x80)
      if p.owed ≤ 1 then ⟨some (Char.ofNat value) :: st.pieces, none⟩
      else ⟨st.pieces, some ⟨p.owed - 1, 0x80, 0xbf, value⟩⟩
    else fresh (none :: st.pieces) b

def State.close (st : State) : List (Option Char) :=
  match st.begun with
  | none => st.pieces.reverse
  -- a character that is not finished is ill-formed
  | some _ => (none :: st.pieces).reverse

def pieces (bytes : Bytes) : List (Option Char) := (bytes.foldl step ⟨[], none⟩).close

def decode? (bytes : Bytes) : Option String :=
  if (pieces bytes).all Option.isSome then some (String.ofList ((pieces bytes).filterMap id))
  else none

def lossy (bytes : Bytes) : String :=
  String.ofList ((pieces bytes).map fun c => c.getD '\uFFFD')

end RosNames.Utf8
