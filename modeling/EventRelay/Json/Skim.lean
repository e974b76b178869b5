import EventRelay.Json.Error
import EventRelay.Json.Scan

/-!
# Passing over JSON values

A value that nobody asked for is passed over without being built. Passing over is laxer than
reading: containers nest without limit, numbers have no range, and a string need not be text.
-/

namespace EventRelay.Json

/-- The two kinds of containers. -/
inductive Container
  | array
  | object
  deriving DecidableEq

namespace Skim

/-- Where the machine stands between two tokens, with the containers that are open, the innermost
first. -/
inductive State
  /-- Where a value must begin. -/
  | value (outer : List Container)
  /-- After an opening bracket. -/
  | firstItem (outer : List Container)
  /-- After an opening brace, or after a comma in an object. -/
  | name (outer : List Container)
  /-- After an opening brace. -/
  | firstName (outer : List Container)
  /-- After the name of a member. -/
  | colon (outer : List Container)
  /-- After a value inside a container. -/
  | afterValue (inner : Container) (outer : List Container)

/-- The state after a complete value. -/
def afterValue : List Container → Progress State Unit
  | [] => .complete ()
  | inner :: outer => .going (.afterValue inner outer)

/-- The step on a token where a value must begin. -/
def begin (outer : List Container) : Token → Except SyntaxError (Progress State Unit)
  | .null => .ok (afterValue outer)
  | .boolean _ => .ok (afterValue outer)
  | .number _ => .ok (afterValue outer)
  | .text _ => .ok (afterValue outer)
  | .brokenText _ cause => .error cause.error
  | .openArray => .ok (.going (.firstItem outer))
  | .openObject => .ok (.going (.firstName outer))
  | .brokenNumber _ => .error .invalidNumber
  | .brokenWord cause => .error cause.wordError
  | .closeArray => .error .expectedValue
  | .closeObject => .error .expectedValue
  | .comma => .error .expectedValue
  | .colon => .error .expectedValue
  | .other => .error .expectedValue

/-- The step on a token where the name of a member must stand. -/
def passName (outer : List Container) : Token → Except SyntaxError (Progress State Unit)
  | .text _ => .ok (.going (.colon outer))
  | .brokenText _ cause => .error cause.error
  | _ => .error .keyNotText

/-- One token. -/
def step : State → Token → Except SyntaxError (Progress State Unit)
  | .value outer, token => begin outer token
  | .firstItem outer, .closeArray => .ok (afterValue outer)
  | .firstItem outer, token => begin (.array :: outer) token
  | .firstName outer, .closeObject => .ok (afterValue outer)
  | .firstName outer, token => passName outer token
  | .name outer, token => passName outer token
  | .colon outer, .colon => .ok (.going (.value (.object :: outer)))
  | .colon _, _ => .error .expectedColon
  | .afterValue .array outer, .comma => .ok (.going (.value (.array :: outer)))
  | .afterValue .array outer, .closeArray => .ok (afterValue outer)
  | .afterValue .array _, _ => .error .expectedCommaOrCloseArray
  | .afterValue .object outer, .comma => .ok (.going (.name outer))
  | .afterValue .object outer, .closeObject => .ok (afterValue outer)
  | .afterValue .object _, _ => .error .expectedCommaOrCloseObject

/-- The error where the input ends too early. -/
def endProblem : State → SyntaxError
  | .value _ => .endInValue
  | .firstItem _ => .endInArray
  | .name _ => .endInObject
  | .firstName _ => .endInObject
  | .colon _ => .endInObject
  | .afterValue .array _ => .endInArray
  | .afterValue .object _ => .endInObject

end Skim

/-- The machine that passes over one value. -/
def skim : Scan Skim.State SyntaxError Unit :=
  ⟨Skim.step, Skim.endProblem⟩

end EventRelay.Json
