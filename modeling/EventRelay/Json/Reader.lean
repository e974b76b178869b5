import EventRelay.Json.Basic
import EventRelay.Json.Lexer
import EventRelay.Json.Number
import EventRelay.Json.Scan
import EventRelay.Json.Text

/-!
# Reading JSON values

The reader keeps the containers that are open in a list of holes, the innermost first. The value of
a hole goes into its container as soon as it is complete. The first token that does not fit decides
the error.
-/

namespace EventRelay.Json

/-- A place in an open container whose value is still to be read, with what the container holds so
far, the latest item first. -/
inductive Hole
  | item (before : List Json)
  | member (before : List (String × Json)) (name : String)

namespace Reader

/-- Where the reader stands between two tokens. -/
inductive State
  /-- Where a value must begin. -/
  | value (holes : List Hole)
  /-- After an opening bracket. -/
  | firstItem (holes : List Hole)
  /-- After a comma in an array. -/
  | nextItem (items : List Json) (holes : List Hole)
  /-- After an element of an array. -/
  | afterItem (items : List Json) (holes : List Hole)
  /-- After an opening brace. -/
  | firstName (holes : List Hole)
  /-- After a comma in an object. -/
  | nextName (members : List (String × Json)) (holes : List Hole)
  /-- After the name of a member. -/
  | colon (members : List (String × Json)) (name : String) (holes : List Hole)
  /-- After a member of an object. -/
  | afterMember (members : List (String × Json)) (holes : List Hole)

/-- Puts a complete value into the innermost hole. -/
def fill (value : Json) : List Hole → Progress State Json
  | [] => .complete value
  | .item before :: holes => .going (.afterItem (value :: before) holes)
  | .member before name :: holes => .going (.afterMember ((name, value) :: before) holes)

/-- The step on a token where a value must begin. At most `room` containers may be open. -/
def begin (room : Nat) (holes : List Hole) : Token → Except SyntaxError (Progress State Json)
  | .null => .ok (fill .null holes)
  | .boolean value => .ok (fill (.boolean value) holes)
  | .number numeral => (numberOf numeral).map fun value => fill (.number value) holes
  | .text pieces => (textOf .closed pieces).map fun value => fill (.text value) holes
  | .brokenText pieces cause =>
    (textOf (.broken cause) pieces).map fun value => fill (.text value) holes
  | .openArray => if holes.length < room then .ok (.going (.firstItem holes)) else .error .tooDeep
  | .openObject => if holes.length < room then .ok (.going (.firstName holes)) else .error .tooDeep
  | .brokenNumber cause => .error cause.numberError
  | .brokenWord cause => .error cause.wordError
  | .closeArray => .error .expectedValue
  | .closeObject => .error .expectedValue
  | .comma => .error .expectedValue
  | .colon => .error .expectedValue
  | .other => .error .expectedValue

/-- The name of a member, from the token where one must stand. -/
def nameOf : Token → Except SyntaxError String
  | .text pieces => textOf .closed pieces
  | .brokenText pieces cause => textOf (.broken cause) pieces
  | _ => .error .keyNotText

/-- One token. -/
def step (room : Nat) : State → Token → Except SyntaxError (Progress State Json)
  | .value holes, token => begin room holes token
  | .firstItem holes, .closeArray => .ok (fill (.array []) holes)
  | .firstItem holes, token => begin room (.item [] :: holes) token
  | .nextItem _ _, .closeArray => .error .trailingComma
  | .nextItem items holes, token => begin room (.item items :: holes) token
  | .afterItem items holes, .closeArray => .ok (fill (.array items.reverse) holes)
  | .afterItem items holes, .comma => .ok (.going (.nextItem items holes))
  | .afterItem _ _, _ => .error .expectedCommaOrCloseArray
  | .firstName holes, .closeObject => .ok (fill (.object []) holes)
  | .firstName holes, token => (nameOf token).map fun name => .going (.colon [] name holes)
  | .nextName _ _, .closeObject => .error .trailingComma
  | .nextName members holes, token =>
    (nameOf token).map fun name => .going (.colon members name holes)
  | .colon members name holes, .colon => .ok (.going (.value (.member members name :: holes)))
  | .colon _ _ _, _ => .error .expectedColon
  | .afterMember members holes, .closeObject => .ok (fill (.object members.reverse) holes)
  | .afterMember members holes, .comma => .ok (.going (.nextName members holes))
  | .afterMember _ _, _ => .error .expectedCommaOrCloseObject

/-- The error where the input ends too early. -/
def endProblem : State → SyntaxError
  | .value _ => .endInValue
  | .firstItem _ => .endInArray
  | .nextItem _ _ => .endInValue
  | .afterItem _ _ => .endInArray
  | .firstName _ => .endInObject
  | .nextName _ _ => .endInValue
  | .colon _ _ _ => .endInObject
  | .afterMember _ _ => .endInObject

end Reader

/-- The machine that reads one value with at most `room` containers open at once. -/
def reader (room : Nat) : Scan Reader.State SyntaxError Json :=
  ⟨Reader.step room, Reader.endProblem⟩

/-- How many containers a text may have open at once. -/
def maxDepth : Nat :=
  127

/-- The value that a list of tokens spells, its members in the order they are read. -/
def read (tokens : List Token) : Except SyntaxError Json := do
  let (value, rest) ← (reader maxDepth).run (.value []) tokens
  if rest.isEmpty then pure value else throw .trailingCharacters

/-- The value, in normal form, that a list of symbols spells. -/
def parseSymbols (symbols : List Text.Symbol) : Except SyntaxError Json :=
  (read (lex symbols)).map normal

/-- The value, in normal form, that a byte string spells. -/
def parse (bytes : Text.Bytes) : Except SyntaxError Json :=
  parseSymbols (Text.Utf8.symbols bytes)

/-- The value, in normal form, that a text spells. -/
def parseText (text : String) : Except SyntaxError Json :=
  parseSymbols (text.toList.map .char)

end EventRelay.Json
