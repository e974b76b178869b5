import EventRelay.Message.Frame
import EventRelay.Message.Producer
import EventRelay.Port
import EventRelay.Text.Split

/-!
# Messages over TCP

The producer opens one connection for every message, writes one frame and reads one byte: zero
accepts the message, any other byte rejects it. How the connections to come will go is part of the
producer's state.
-/

namespace EventRelay

open Text (Bytes)

/-- How a connection goes. -/
inductive Connection
  /-- It cannot be opened. -/
  | refused (cause : String)
  /-- It is never opened and never refused. -/
  | stalled
  /-- The broker reads the frame and answers with a byte. -/
  | answered (code : UInt8)
  /-- The frame cannot be written or the answer cannot be read. -/
  | failed (cause : String)
  /-- The broker reads the frame and never answers. -/
  | silent
  deriving DecidableEq, Repr

namespace Connection

/-- Whether the broker gets to read the frame. -/
def delivers : Connection → Bool
  | .refused _ => false
  | .stalled => false
  | _ => true

end Connection

/-- A producer that sends frames over TCP. -/
structure TcpProducer where
  endpoint : String
  connectTimeout : Duration
  /-- How the next connections will go; later ones are refused. -/
  network : List Connection
  /-- The frames that have reached the broker. -/
  frames : List Bytes
  counters : SinkCounters
  deriving DecidableEq

namespace TcpProducer

/-- The byte that accepts a message. -/
def accepted : UInt8 :=
  0

/-- The time limit for opening a connection unless told otherwise. -/
def defaultConnectTimeout : Duration :=
  .ofSeconds 5

/-- A producer for an endpoint, given how the next connections will go. -/
def ofEndpoint (endpoint : String) (connectTimeout : Duration) (network : List Connection) :
    TcpProducer :=
  ⟨endpoint, connectTimeout, network, [], {}⟩

/-- The outcome of one connection. A connection that is never opened misses the send limit if that
is the nearer one, and else counts as refused. -/
def exchange (producer : TcpProducer) (topic : String) (limit : Duration) :
    Connection → Except SendError Unit
  | .refused cause => .error (.connection producer.endpoint cause)
  | .stalled =>
    if limit.exceeds producer.connectTimeout then
      .error (.connection producer.endpoint "connection timed out")
    else .error (.timeout topic limit)
  | .answered code => if code = accepted then .ok () else .error (.rejected topic code)
  | .failed cause => .error (.exchange topic cause)
  | .silent => .error (.timeout topic limit)

/-- Why no connection to an endpoint can be opened where nobody listens. An endpoint that does not
end in a colon and a port is refused before the network is asked. -/
def refusal (endpoint : String) : String :=
  match (Text.split ':' endpoint).reverse with
  | port :: _ :: _ =>
    if (Port.ofText? port).isSome then "Connection refused (os error 111)"
    else "invalid port value"
  | _ => "invalid socket address"

/-- How the next connection will go. -/
def upcoming (producer : TcpProducer) : Connection :=
  producer.network.head?.getD (.refused (refusal producer.endpoint))

/-- Sends one frame over a connection of its own; no connection is opened for a message without a
frame. -/
def send (producer : TcpProducer) (topic key : String) (value : Bytes) (limit : Duration) :
    Except SendError Unit × TcpProducer :=
  let received := producer.counters.receive
  match Frame.encode topic key value with
  | .error problem =>
    (.error (.exchange topic problem.message), { producer with counters := received.fail })
  | .ok frame =>
    let connection := producer.upcoming
    let outcome := producer.exchange topic limit connection
    (outcome,
      { producer with
        network := producer.network.drop 1
        frames := if connection.delivers then producer.frames ++ [frame] else producer.frames
        counters := received.settle value.length outcome })

instance : Producer TcpProducer where
  kind _ := "tcp"
  counters producer := producer.counters
  send := send

end TcpProducer

end EventRelay
