import EventRelay.Message.Producer

/-!
# Messages in memory

The producer keeps every message instead of sending it. It can be told to reject.
-/

namespace EventRelay

/-- Messages in memory. -/
structure MemoryProducer where
  /-- The accepted messages, in the order in which they were sent. -/
  sent : List SentMessage
  failing : Bool
  counters : SinkCounters
  deriving DecidableEq

namespace MemoryProducer

/-- A producer that has sent nothing yet. -/
def empty : MemoryProducer :=
  ⟨[], false, {}⟩

/-- The code of a rejection. -/
def rejection : UInt8 :=
  1

/-- Keeps a message, unless the producer is failing. -/
def send (producer : MemoryProducer) (topic key : String) (value : Text.Bytes) :
    Except SendError Unit × MemoryProducer :=
  let counters := producer.counters.receive
  if producer.failing then
    (.error (.rejected topic rejection), { producer with counters := counters.fail })
  else
    (.ok (),
      { producer with
        sent := producer.sent ++ [⟨topic, key, value⟩]
        counters := counters.succeed value.length })

/-- The messages under a topic. -/
def sentTo (producer : MemoryProducer) (topic : String) : List SentMessage :=
  producer.sent.filter fun message => message.topic = topic

instance : Producer MemoryProducer where
  kind _ := "memory"
  counters producer := producer.counters
  send producer topic key value _ := producer.send topic key value

end MemoryProducer

end EventRelay
