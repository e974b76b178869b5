import EventRelay.Json.Token

/-!
# What is wrong with a JSON text
-/

namespace EventRelay.Json

/-- The first thing that is wrong with a JSON text, reading from left to right. -/
inductive SyntaxError
  | endInValue
  | endInArray
  | endInObject
  | endInText
  | expectedValue
  | expectedWord
  | expectedColon
  | expectedCommaOrCloseArray
  | expectedCommaOrCloseObject
  | trailingComma
  | trailingCharacters
  | keyNotText
  | invalidNumber
  | numberOutOfRange
  | invalidEscape
  | endInSurrogatePair
  | loneSurrogate
  | controlCharacter
  | invalidCodePoint
  | tooDeep
  deriving DecidableEq, Repr

namespace SyntaxError

/-- The wording of an error. -/
def message : SyntaxError → String
  | .endInValue => "EOF while parsing a value"
  | .endInArray => "EOF while parsing a list"
  | .endInObject => "EOF while parsing an object"
  | .endInText => "EOF while parsing a string"
  | .expectedValue => "expected value"
  | .expectedWord => "expected ident"
  | .expectedColon => "expected `:`"
  | .expectedCommaOrCloseArray => "expected `,` or `]`"
  | .expectedCommaOrCloseObject => "expected `,` or `\x7d`"
  | .trailingComma => "trailing comma"
  | .trailingCharacters => "trailing characters"
  | .keyNotText => "key must be a string"
  | .invalidNumber => "invalid number"
  | .numberOutOfRange => "number out of range"
  | .invalidEscape => "invalid escape"
  | .endInSurrogatePair => "unexpected end of hex escape"
  | .loneSurrogate => "lone leading surrogate in hex escape"
  | .controlCharacter => "control character (\\u0000-\\u001F) found while parsing a string"
  | .invalidCodePoint => "invalid unicode code point"
  | .tooDeep => "recursion limit exceeded"

end SyntaxError

/-- The error of a string that breaks off, where its pieces raise none of their own. -/
def TextBreak.error : TextBreak → SyntaxError
  | .endOfInput => .endInText
  | .controlCharacter => .controlCharacter
  | .unknownEscape => .invalidEscape
  | .badUnit => .invalidEscape

/-- The error of a word that breaks off. -/
def WordBreak.wordError : WordBreak → SyntaxError
  | .endOfInput => .endInValue
  | .mismatch => .expectedWord

/-- The error of a number that breaks off. -/
def WordBreak.numberError : WordBreak → SyntaxError
  | .endOfInput => .endInValue
  | .mismatch => .invalidNumber

end EventRelay.Json
