import EventRelay.Json.Error

/-!
# Strings as text

A unit escape names a UTF-16 code unit, so a character beyond the basic plane is a high unit
followed by a low one; any other use of those units is refused. The pieces of a string are read from
left to right, and the first piece that is wrong decides the error.
-/

namespace EventRelay.Json

/-- How the pieces of a string end. -/
inductive TextEnd
  | closed
  | broken (cause : TextBreak)
  deriving DecidableEq

/-- Holds for the units that begin a pair. -/
def isHighUnit (unit : UInt16) : Bool :=
  0xD800 ≤ unit.toNat && unit.toNat < 0xDC00

/-- Holds for the units that end a pair. -/
def isLowUnit (unit : UInt16) : Bool :=
  0xDC00 ≤ unit.toNat && unit.toNat < 0xE000

/-- The character of a pair of units. -/
def pairChar (high low : UInt16) : Char :=
  Char.ofNat (0x10000 + (high.toNat - 0xD800) * 0x400 + (low.toNat - 0xDC00))

/-- The error of a high unit at the end of the pieces. -/
def TextEnd.afterHighUnit : TextEnd → SyntaxError
  | .broken .endOfInput => .endInText
  | .broken .badUnit => .invalidEscape
  | _ => .endInSurrogatePair

/-- The characters that pieces stand for; bytes that belong to no character are passed over. -/
def charsOf (ending : TextEnd) : List Piece → Except SyntaxError (List Char)
  | [] =>
    match ending with
    | .closed => .ok []
    | .broken cause => .error cause.error
  | .char c :: rest => (charsOf ending rest).map (c :: ·)
  | .stray _ :: rest => charsOf ending rest
  | .escaped c :: rest => (charsOf ending rest).map (c :: ·)
  | .unit unit :: rest =>
    if isLowUnit unit then .error .loneSurrogate
    else if isHighUnit unit then
      match rest with
      | [] => .error ending.afterHighUnit
      | .unit second :: others =>
        if isLowUnit second then (charsOf ending others).map (pairChar unit second :: ·)
        else .error .loneSurrogate
      | _ => .error .endInSurrogatePair
    else (charsOf ending rest).map (Char.ofNat unit.toNat :: ·)

/-- Holds for the pieces that are part of a character. -/
def Piece.isEncoded : Piece → Bool
  | .stray _ => false
  | _ => true

/-- The text that pieces stand for. Bytes that belong to no character are refused at the closing
quote, after everything else. -/
def textOf (ending : TextEnd) (pieces : List Piece) : Except SyntaxError String := do
  let chars ← charsOf ending pieces
  if pieces.all Piece.isEncoded then pure (String.ofList chars) else throw .invalidCodePoint

/-- The piece that a character is written as: the quote, the backslash and the control characters
are escaped, everything else stands for itself. -/
def Piece.ofChar (c : Char) : Piece :=
  if c = '"' ∨ c = '\\' ∨ c = '\x08' ∨ c = '\x0c' ∨ c = '\n' ∨ c = '\r' ∨ c = '\t' then .escaped c
  else if c.toNat < 0x20 then .unit (UInt16.ofNat c.toNat)
  else .char c

/-- The pieces that a text is written as. -/
def piecesOf (text : String) : List Piece :=
  text.toList.map Piece.ofChar

end EventRelay.Json
