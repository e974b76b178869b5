import EventRelay.Message.Memory
import EventRelay.Message.Tcp

/-!
# The producer that settings choose
-/

namespace EventRelay

/-- A producer of either kind. -/
inductive ConfiguredProducer
  | tcp (producer : TcpProducer)
  | memory (producer : MemoryProducer)

namespace ConfiguredProducer

instance : Producer ConfiguredProducer where
  kind
    | .tcp producer => Producer.kind producer
    | .memory producer => Producer.kind producer
  counters
    | .tcp producer => Producer.counters producer
    | .memory producer => Producer.counters producer
  send
    | .tcp producer => fun topic key value limit =>
      let (outcome, after) := Producer.send producer topic key value limit
      (outcome, .tcp after)
    | .memory producer => fun topic key value limit =>
      let (outcome, after) := Producer.send producer topic key value limit
      (outcome, .memory after)

end ConfiguredProducer

end EventRelay
