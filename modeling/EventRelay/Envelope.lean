import EventRelay.Event
import EventRelay.Json.Printer
import EventRelay.Json.Reader

/-!
# Envelopes

Every message that comes in through the front door is put into an envelope, whose header says which
stream the message belongs to and of what type it is. The request to reload rules is an envelope
without content.
-/

namespace EventRelay

/-- A message with a header. -/
structure Envelope where
  stream : Option String
  streamAlias : Option String
  messageType : Option String
  payload : Json

/-- Why a body cannot be put into an envelope. -/
inductive EnvelopeError
  | malformed (cause : Json.SyntaxError)
  | notAnObject (kind : String)
  deriving DecidableEq

namespace EnvelopeError

/-- The wording of an error. -/
def message : EnvelopeError → String
  | .malformed cause => "body is not valid JSON: " ++ cause.message
  | .notAnObject kind => "body must be a JSON object, got " ++ kind

end EnvelopeError

namespace Envelope

/-- Puts a message into an envelope. A write key takes the place of the stream. -/
def wrap (message : Json) : Except EnvelopeError Envelope :=
  if message.isObject then
    let writeKey := message.field? "writeKey"
    .ok
      { stream := if writeKey.isSome then none else message.field? "stream_id"
        streamAlias := writeKey
        messageType := message.field? "type"
        payload := message }
  else .error (.notAnObject message.kind)

/-- Puts the message that a byte string spells into an envelope. -/
def ofBytes (body : Text.Bytes) : Except EnvelopeError Envelope :=
  match Json.parse body with
  | .error cause => .error (.malformed cause)
  | .ok message => wrap message

/-- The envelope that carries a control code. -/
def control (code : String) : Envelope :=
  { stream := some ""
    streamAlias := none
    messageType := some code
    payload := .object [] }

/-- A header field as a member, if it is there. -/
def headerMember (name : String) (value : Option String) : List (String × Json) :=
  match value with
  | none => []
  | some text => [(name, .text text)]

/-- The envelope as an object: the header fields that are there, then the message. -/
def json (envelope : Envelope) : Json :=
  .object
    (headerMember "stream_id" envelope.stream ++
      headerMember "stream_alt_id" envelope.streamAlias ++
      headerMember "message_type" envelope.messageType ++ [("payload", envelope.payload)])

/-- The envelope as bytes. -/
def bytes (envelope : Envelope) : Text.Bytes :=
  envelope.json.bytes

end Envelope

end EventRelay
