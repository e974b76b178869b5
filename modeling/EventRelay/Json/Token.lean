import EventRelay.Decimal.Digits
import EventRelay.Text.Hex
import EventRelay.Text.Utf8

/-!
# JSON tokens

A token is a punctuation mark, a word, a number or a string as it is spelled. Strings keep their
escapes, because what an escape means is decided when the string is read as text. A text that is
no JSON ends in a token that says what broke off; nothing after it is looked at.
-/

namespace EventRelay.Json

open EventRelay.Decimal (Digit)
open EventRelay.Text (Symbol hexDigit)

/-- The exponent of a number as it is spelled. -/
structure Exponent where
  negative : Bool
  digits : List Digit
  deriving DecidableEq

/-- A number as it is spelled; the fraction is empty where there is no point. -/
structure Numeral where
  negative : Bool
  whole : List Digit
  fraction : List Digit
  exponent : Option Exponent
  deriving DecidableEq

/-- One step of a string between its quotes. -/
inductive Piece
  /-- A character that stands for itself. -/
  | char (c : Char)
  /-- A byte that belongs to no character. -/
  | stray (byte : UInt8)
  /-- A backslash and a letter, which stand for the given character. -/
  | escaped (c : Char)
  /-- A backslash, the letter u and four hexadecimal digits. -/
  | unit (value : UInt16)
  deriving DecidableEq

/-- Why a string does not reach its closing quote. -/
inductive TextBreak
  | endOfInput
  | controlCharacter
  /-- A backslash before a letter that names no escape. -/
  | unknownEscape
  /-- Four bytes after the letter u that are not hexadecimal digits. -/
  | badUnit
  deriving DecidableEq

/-- Why a number or a word is not finished. -/
inductive WordBreak
  | endOfInput
  | mismatch
  deriving DecidableEq

/-- A JSON token. -/
inductive Token
  | openArray
  | closeArray
  | openObject
  | closeObject
  | comma
  | colon
  | null
  | boolean (value : Bool)
  | number (numeral : Numeral)
  | text (pieces : List Piece)
  | brokenText (pieces : List Piece) (cause : TextBreak)
  | brokenNumber (cause : WordBreak)
  | brokenWord (cause : WordBreak)
  /-- A character that begins no token. -/
  | other
  deriving DecidableEq

/-- The character that a one-letter escape stands for, if the letter names one. -/
def escapeOf? : Char → Option Char
  | '"' => some '"'
  | '\\' => some '\\'
  | '/' => some '/'
  | 'b' => some '\x08'
  | 'f' => some '\x0c'
  | 'n' => some '\n'
  | 'r' => some '\r'
  | 't' => some '\t'
  | _ => none

/-- The letter of the escape that stands for a character, the character itself where the escape is
a backslash before it. -/
def escapeLetter : Char → Char
  | '\x08' => 'b'
  | '\x0c' => 'f'
  | '\n' => 'n'
  | '\r' => 'r'
  | '\t' => 't'
  | c => c

/-- The symbols that spell a piece. -/
def Piece.spelling : Piece → List Symbol
  | .char c => [.char c]
  | .stray byte => [.stray byte]
  | .escaped c => [.char '\\', .char (escapeLetter c)]
  | .unit value =>
    let n := value.toNat
    [.char '\\', .char 'u', .char (hexDigit (n / 4096)), .char (hexDigit (n / 256 % 16)),
      .char (hexDigit (n / 16 % 16)), .char (hexDigit (n % 16))]

/-- The characters that spell an exponent; the sign is always written. -/
def Exponent.spelling (exponent : Exponent) : List Char :=
  'e' :: (if exponent.negative then '-' else '+') :: exponent.digits.map Digit.char

/-- The characters that spell a number. -/
def Numeral.spelling (numeral : Numeral) : List Char :=
  (if numeral.negative then ['-'] else []) ++ numeral.whole.map Digit.char ++
    (if numeral.fraction.isEmpty then [] else '.' :: numeral.fraction.map Digit.char) ++
    (match numeral.exponent with
      | none => []
      | some exponent => exponent.spelling)

/-- The symbols that spell a token; a broken one has no spelling. -/
def Token.spelling : Token → List Symbol
  | .openArray => [.char '[']
  | .closeArray => [.char ']']
  | .openObject => [.char '{']
  | .closeObject => [.char '}']
  | .comma => [.char ',']
  | .colon => [.char ':']
  | .null => [.char 'n', .char 'u', .char 'l', .char 'l']
  | .boolean true => [.char 't', .char 'r', .char 'u', .char 'e']
  | .boolean false => [.char 'f', .char 'a', .char 'l', .char 's', .char 'e']
  | .number numeral => numeral.spelling.map .char
  | .text pieces => .char '"' :: pieces.flatMap Piece.spelling ++ [.char '"']
  | .brokenText .. => []
  | .brokenNumber _ => []
  | .brokenWord _ => []
  | .other => []

end EventRelay.Json
