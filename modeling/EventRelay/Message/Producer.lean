import EventRelay.Counters
import EventRelay.Duration
import EventRelay.Text.Utf8

/-!
# Producers

A producer hands messages to a broker, each under a topic and with a key, and waits for the broker's
answer within a time limit.
-/

namespace EventRelay

open Text (Bytes)

/-- Why a message is not accepted. -/
inductive SendError
  /-- There is nobody to send to. -/
  | missingEndpoint
  | connection (endpoint cause : String)
  | exchange (topic cause : String)
  | timeout (topic : String) (limit : Duration)
  | rejected (topic : String) (code : UInt8)
  deriving DecidableEq, Repr

namespace SendError

/-- The word for the kind of an error. -/
def kind : SendError → String
  | .missingEndpoint => "missing_endpoint"
  | .connection .. => "connect"
  | .exchange .. => "send"
  | .timeout .. => "timeout"
  | .rejected .. => "rejected"

/-- The wording of an error. -/
def message : SendError → String
  | .missingEndpoint => "no messaging endpoint configured"
  | .connection endpoint cause => "connection failed to " ++ endpoint ++ ": " ++ cause
  | .exchange topic cause => "send to topic " ++ topic ++ " failed: " ++ cause
  | .timeout topic limit => "send to topic " ++ topic ++ " timed out after " ++ limit.text
  | .rejected topic code =>
    "broker rejected message for topic " ++ topic ++ " with code " ++ Decimal.text code.toNat

end SendError

/-- Counts the outcome of a send: an accepted message with its size, a failure, or a deadline that
was missed. -/
def SinkCounters.settle (counters : SinkCounters) (size : Nat) :
    Except SendError Unit → SinkCounters
  | .ok () => counters.succeed size
  | .error (.timeout ..) => counters.expire
  | .error _ => counters.fail

/-- A message that has been accepted. -/
structure SentMessage where
  topic : String
  key : String
  value : Bytes
  deriving DecidableEq

/-- The operations of a producer. -/
class Producer (π : Type) where
  /-- The word for the kind of a producer. -/
  kind : π → String
  /-- What has become of the messages so far. -/
  counters : π → SinkCounters
  /-- Sends a value under a topic with a key, within a time limit. -/
  send : π → String → String → Bytes → Duration → Except SendError Unit × π

/-- Sends through a producer that may be missing. -/
def Producer.sendThrough {π : Type} [Producer π] (producer : Option π) (topic key : String)
    (value : Bytes) (limit : Duration) : Except SendError Unit × Option π :=
  match producer with
  | none => (.error .missingEndpoint, none)
  | some producer =>
    let (outcome, after) := Producer.send producer topic key value limit
    (outcome, some after)

end EventRelay
