import EventRelay.Json.Basic
import EventRelay.Json.Number
import EventRelay.Json.Text

/-!
# Writing JSON values

A value is first turned into tokens, which are then spelled one after the other without blanks.
-/

namespace EventRelay.Json

mutual

/-- The tokens that a value is written as. -/
def tokens : Json → List Token
  | .null => [.null]
  | .boolean value => [.boolean value]
  | .number value => [.number value.numeral]
  | .text value => [.text (piecesOf value)]
  | .array items => .openArray :: (tokensOfItems items ++ [.closeArray])
  | .object members => .openObject :: (tokensOfMembers members ++ [.closeObject])

/-- The tokens of the elements of an array, with commas between them. -/
def tokensOfItems : List Json → List Token
  | [] => []
  | item :: rest => item.tokens ++ tokensOfMoreItems rest

/-- The tokens of the elements that follow another one. -/
def tokensOfMoreItems : List Json → List Token
  | [] => []
  | item :: rest => .comma :: (item.tokens ++ tokensOfMoreItems rest)

/-- The tokens of the members of an object, with commas between them. -/
def tokensOfMembers : List (String × Json) → List Token
  | [] => []
  | (name, value) :: rest =>
    .text (piecesOf name) :: .colon :: (value.tokens ++ tokensOfMoreMembers rest)

/-- The tokens of the members that follow another one. -/
def tokensOfMoreMembers : List (String × Json) → List Token
  | [] => []
  | (name, value) :: rest =>
    .comma :: .text (piecesOf name) :: .colon :: (value.tokens ++ tokensOfMoreMembers rest)

end

/-- The characters that spell a list of tokens one after the other. -/
def spell (tokens : List Token) : List Char :=
  (tokens.flatMap Token.spelling).filterMap Text.Symbol.char?

/-- The text that a value is written as. -/
def write (value : Json) : String :=
  String.ofList (spell value.tokens)

/-- The bytes that a value is written as. -/
def bytes (value : Json) : Text.Bytes :=
  Text.Utf8.encode value.write

end EventRelay.Json
