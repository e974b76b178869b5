import EventRelay.Proofs.Stage.Invocation
import EventRelay.Proofs.Store.Memory

/-!
# The counters of a stage add up

Every invocation is received once and ends in one way. An event that is processed is written or not,
and it is routed in one way; the masker looks at it, and every sink counts what it is handed. So the
sums over the ways to end agree with each other and with the parts of the stage, in everything that
a stage without counts becomes.
-/

namespace EventRelay

open Text (Bytes)

/-! ## Sinks -/

namespace SinkCounters

/-- Counters of a sink that has been handed some records, by how many were written and how many were
not. -/
structure Tally (counters : SinkCounters) (written failed : Nat) : Prop where
  received : counters.received = written + failed
  written : counters.written = written
  errors : counters.errors = failed

variable {counters : SinkCounters} {written failed : Nat}

theorem Tally.succeed (tally : counters.Tally written failed) (size : Nat) :
    (counters.receive.succeed size).Tally (written + 1) failed where
  received := by
    change counters.received + 1 = _
    rw [tally.received]
    omega
  written := congrArg (· + 1) tally.written
  errors := tally.errors

theorem Tally.fail (tally : counters.Tally written failed) :
    counters.receive.fail.Tally written (failed + 1) where
  received := congrArg (· + 1) tally.received
  written := tally.written
  errors := congrArg (· + 1) tally.errors

theorem Tally.expire (tally : counters.Tally written failed) :
    counters.receive.expire.Tally written (failed + 1) where
  received := congrArg (· + 1) tally.received
  written := tally.written
  errors := congrArg (· + 1) tally.errors

end SinkCounters

/-- A writer counts a record as the stage counts the write. -/
theorem TableWriter.tally_append {Store : Type} [TableStore Store] {writer : TableWriter Store}
    (counted : StageCounters)
    (tally : writer.counters.Tally counted.writesOk counted.writesFailed) (files : FileTree)
    (destination : Destination) (payload : Bytes) :
    (writer.append files destination payload).2.1.counters.Tally
      (counted.countWrite (writer.append files destination payload).1).writesOk
      (counted.countWrite (writer.append files destination payload).1).writesFailed := by
  unfold append
  extract_lets path limit attempt received
  cases attempt.outcome with
  | overdue => exact tally.expire
  | finished left answer =>
    cases answer with
    | error problem => exact tally.fail
    | ok receipt => exact tally.succeed receipt.bytes

namespace Stage

/-- A producer that may be missing, by how many messages it has accepted and how many it has not. -/
def SendTally (producer : Option MemoryProducer) (accepted failed : Nat) : Prop :=
  ∀ present, producer = some present → present.counters.Tally accepted failed

/-- A producer counts a message as the stage counts the route, and counts nothing where the route
sends nothing. -/
theorem sendTally_route {producer : Option MemoryProducer} (counted : StageCounters)
    (tally : SendTally producer counted.forwardsOk counted.forwardsFailed) (current : String)
    (limit : Duration) (rule : Option Rule) (body : Bytes) :
    SendTally (route current producer limit rule body).2
      (counted.countRoute (route current producer limit rule body).1).forwardsOk
      (counted.countRoute (route current producer limit rule body).1).forwardsFailed := by
  unfold route
  extract_lets source
  cases plan rule current with
  | error problem => exact tally
  | ok goal =>
    cases goal with
    | none =>
      cases rule with
      | none => exact tally
      | some rule => exact tally
    | some target =>
      cases producer with
      | none =>
        intro after absent
        simp [Producer.sendThrough] at absent
      | some producer =>
        have before := tally producer rfl
        dsimp only
        cases failing : producer.failing with
        | true =>
          rw [MemoryProducer.sendThrough_of_failing failing]
          rintro after ⟨⟩
          exact before.fail
        | false =>
          rw [MemoryProducer.sendThrough_of_working failing]
          rintro after ⟨⟩
          exact before.succeed body.length

/-- A route keeps the producer that it has, and finds none where there is none. -/
theorem isSome_route {π : Type} [Producer π] (current : String) (producer : Option π)
    (limit : Duration) (rule : Option Rule) (body : Bytes) :
    (route current producer limit rule body).2.isSome = producer.isSome := by
  rw [route_snd]
  cases nextStage? rule current with
  | none => rfl
  | some next =>
    cases producer with
    | none => rfl
    | some producer => rfl

/-! ## Maskers -/

/-- A masker that may be missing, by in how many events it has masked something and how many it has
looked at. -/
def MaskTally (masker : Option Masker) (masked processed : Nat) : Prop :=
  match masker with
  | none => masked = 0
  | some masker => masker.masked = masked ∧ masker.processed = processed

/-- A masker looks at every event, and counts it as masked where the stage does. -/
theorem maskTally_maskWith {masker : Option Masker} {masked processed : Nat}
    (tally : MaskTally masker masked processed) (event : Json) :
    MaskTally (maskWith masker event).2.2
      (masked + if (maskWith masker event).2.1 then 1 else 0) (processed + 1) := by
  cases masker with
  | none => exact tally
  | some masker =>
    obtain ⟨rfl, rfl⟩ := tally
    unfold maskWith Masker.mask
    cases Masker.maskEvent event with
    | error problem => exact ⟨rfl, rfl⟩
    | ok outcome =>
      cases outcome with
      | none => exact ⟨rfl, rfl⟩
      | some masked => exact ⟨rfl, rfl⟩

end Stage

/-! ## One event -/

namespace StageCounters

/-- A write is counted as one that went well or as one that failed. -/
theorem countWrite_eq (counters : StageCounters) (write : Except WriteError Receipt) :
    ∃ ok failed, ok + failed = 1 ∧
      counters.countWrite write =
        { counters with
          writesOk := counters.writesOk + ok
          writesFailed := counters.writesFailed + failed } := by
  cases write with
  | ok receipt => exact ⟨1, 0, rfl, rfl⟩
  | error problem => exact ⟨0, 1, rfl, rfl⟩

/-- A route is counted as one of the ways in which it may end. -/
theorem countRoute_eq (counters : StageCounters) (route : RouteOutcome) :
    ∃ ok failed ended faults, ok + failed + ended + faults = 1 ∧
      counters.countRoute route =
        { counters with
          forwardsOk := counters.forwardsOk + ok
          forwardsFailed := counters.forwardsFailed + failed
          terminal := counters.terminal + ended
          integrityFaults := counters.integrityFaults + faults } := by
  cases route with
  | unmatched => exact ⟨0, 0, 1, 0, rfl, rfl⟩
  | terminal rule => exact ⟨0, 0, 1, 0, rfl, rfl⟩
  | forwarded rule target => exact ⟨1, 0, 0, 0, rfl, rfl⟩
  | failed rule cause =>
    cases cause with
    | integrity problem => exact ⟨0, 0, 0, 1, rfl, rfl⟩
    | forward target problem => exact ⟨0, 1, 0, 0, rfl, rfl⟩

end StageCounters

namespace Stage

variable {Store : Type}

/-- The counters of a stage add up, by themselves and with those of its parts. -/
structure Balanced (stage : Stage Store MemoryProducer) : Prop where
  received : stage.counters.received =
    stage.counters.parseErrors + stage.counters.controlSignals + stage.counters.writesOk +
      stage.counters.writesFailed
  routed : stage.counters.writesOk + stage.counters.writesFailed =
    stage.counters.forwardsOk + stage.counters.forwardsFailed + stage.counters.terminal +
      stage.counters.integrityFaults
  masked : stage.counters.masked ≤ stage.counters.writesOk + stage.counters.writesFailed
  masker : MaskTally stage.masker stage.counters.masked
    (stage.counters.writesOk + stage.counters.writesFailed)
  writer : stage.writer.counters.Tally stage.counters.writesOk stage.counters.writesFailed
  producer : SendTally stage.producer stage.counters.forwardsOk stage.counters.forwardsFailed

variable [TableStore Store]

/-- Processing an event keeps the counters balanced: the stage counts it once as a write and once as
a route, and every part counts it as the stage does. -/
theorem Balanced.ordinary {stage : Stage Store MemoryProducer} (balanced : stage.Balanced)
    (files : FileTree) {payload : Bytes} {event : Json} (arrives : eventOf payload = .ok event)
    (ordinary : stage.isControl event = false) :
    (stage.invoke files payload).2.1.Balanced := by
  obtain ⟨received, routed, masked, masker, writer, producer⟩ := balanced
  rw [invoke_of_ordinary stage files arrives ordinary]
  -- What the stage has counted before the write and the route are.
  let counted : StageCounters :=
    { stage.counters with
      received := stage.counters.received + 1
      masked := stage.counters.masked + if (maskWith stage.masker event).2.1 then 1 else 0 }
  obtain ⟨ok, failed, writtenOnce, afterWrite⟩ :=
    counted.countWrite_eq (stage.writeOf files event).1
  obtain ⟨forwarded, lost, ended, faults, routedOnce, afterRoute⟩ :=
    (counted.countWrite (stage.writeOf files event).1).countRoute_eq (stage.routeOf event).1
  have writerAfter : (stage.writeOf files event).2.1.counters.Tally _ _ :=
    TableWriter.tally_append counted writer files (Destination.ofEvent event) (stage.bodyOf event)
  have producerAfter : SendTally (stage.routeOf event).2 _ _ :=
    sendTally_route (counted.countWrite (stage.writeOf files event).1)
      (by rw [afterWrite]; exact producer) stage.name stage.sendTimeout (stage.book.find? event)
      (stage.bodyOf event)
  rw [← writeOf, afterWrite] at writerAfter
  rw [← routeOf, afterRoute, afterWrite] at producerAfter
  rw [afterRoute, afterWrite]
  have once : stage.counters.writesOk + stage.counters.writesFailed + 1 =
      stage.counters.writesOk + ok + (stage.counters.writesFailed + failed) := by
    omega
  have maskerAfter := maskTally_maskWith masker event
  rw [once] at maskerAfter
  refine ⟨?_, ?_, ?_, maskerAfter, writerAfter, producerAfter⟩
  · dsimp only [counted]
    omega
  · dsimp only [counted]
    omega
  · dsimp only [counted]
    split <;> omega

/-- An invocation keeps the counters balanced, however it ends. -/
theorem Balanced.invoke {stage : Stage Store MemoryProducer} (balanced : stage.Balanced)
    (files : FileTree) (payload : Bytes) : (stage.invoke files payload).2.1.Balanced := by
  have ⟨received, routed, masked, masker, writer, producer⟩ := balanced
  cases arrives : eventOf payload with
  | error problem =>
    rw [invoke_of_refused stage files arrives]
    refine ⟨?_, routed, masked, masker, writer, producer⟩
    dsimp only
    omega
  | ok event =>
    cases control : stage.isControl event with
    | true =>
      rw [invoke_of_control stage files arrives control]
      refine ⟨?_, routed, masked, masker, writer, producer⟩
      dsimp only
      omega
    | false => exact balanced.ordinary files arrives control

/-! ## Runs -/

/-- What may become of a stage next. Between invocations its rules may change, its producer may fail
or work again, and anything may happen to its store. -/
inductive Follows (before : Stage Store MemoryProducer) : Stage Store MemoryProducer → Prop
  | invoke (files : FileTree) (payload : Bytes) : Follows before (before.invoke files payload).2.1
  | supply (rules : List Rule) : Follows before (before.supply rules)
  | reload (files : FileTree) : Follows before (before.reload files).2
  | store (store : Store) : Follows before { before with writer := { before.writer with store } }
  | producer (failing : Bool) :
      Follows before
        { before with producer := before.producer.map fun present => { present with failing } }

/-- A stage that has not counted anything yet, and neither have its parts. -/
structure Uncounted (stage : Stage Store MemoryProducer) : Prop where
  counters : stage.counters = {}
  masker : ∀ masker, stage.masker = some masker → masker = {}
  writer : stage.writer.counters = {}
  producer : ∀ producer, stage.producer = some producer → producer.counters = {}

omit [TableStore Store] in
/-- Nothing counted adds up. -/
theorem Uncounted.balanced {stage : Stage Store MemoryProducer} (uncounted : stage.Uncounted) :
    stage.Balanced where
  received := by simp [uncounted.counters]
  routed := by simp [uncounted.counters]
  masked := by simp [uncounted.counters]
  masker := by
    rw [uncounted.counters]
    cases present : stage.masker with
    | none => rfl
    | some masker =>
      rw [uncounted.masker masker present]
      exact ⟨rfl, rfl⟩
  writer := by
    rw [uncounted.counters, uncounted.writer]
    exact ⟨rfl, rfl, rfl⟩
  producer producer present := by
    rw [uncounted.counters, uncounted.producer producer present]
    exact ⟨rfl, rfl, rfl⟩

/-- A stage that settings describe begins without counts, over a producer without counts. -/
theorem uncounted_ofSettings (settings : Settings) (book : RuleBook)
    {producer : Option MemoryProducer}
    (unused : ∀ present, producer = some present → present.counters = {}) :
    (ofSettings settings book producer).Uncounted where
  counters := rfl
  masker masker masks := by
    change (if settings.stage.maskPersonal then some {} else none) = some masker at masks
    split at masks
    · exact (Option.some.inj masks).symm
    · simp at masks
  writer := rfl
  producer := unused

variable {before after : Stage Store MemoryProducer}

/-- Whatever a stage becomes next is as balanced as the stage. -/
theorem Balanced.follows (balanced : before.Balanced) (follows : before.Follows after) :
    after.Balanced := by
  have ⟨received, routed, masked, masker, writer, producer⟩ := balanced
  cases follows with
  | invoke files payload => exact balanced.invoke files payload
  | supply rules => exact ⟨received, routed, masked, masker, writer, producer⟩
  | reload files => exact ⟨received, routed, masked, masker, writer, producer⟩
  | store store => exact ⟨received, routed, masked, masker, writer, producer⟩
  | producer failing =>
    refine ⟨received, routed, masked, masker, writer, fun toggled same => ?_⟩
    obtain ⟨present, was, rfl⟩ := Option.map_eq_some_iff.mp same
    exact producer present was

/-- Whatever a stage becomes next has a masker and a producer if the stage has. -/
theorem Follows.keeps (follows : before.Follows after) :
    after.masker.isSome = before.masker.isSome ∧
      after.producer.isSome = before.producer.isSome := by
  cases follows with
  | invoke files payload =>
    cases arrives : eventOf payload with
    | error problem =>
      rw [invoke_of_refused before files arrives]
      exact ⟨rfl, rfl⟩
    | ok event =>
      cases control : before.isControl event with
      | true =>
        rw [invoke_of_control before files arrives control]
        exact ⟨rfl, rfl⟩
      | false =>
        rw [invoke_of_ordinary before files arrives control]
        exact ⟨isSome_maskWith _ _, isSome_route _ _ _ _ _⟩
  | supply rules => exact ⟨rfl, rfl⟩
  | reload files => exact ⟨rfl, rfl⟩
  | store store => exact ⟨rfl, rfl⟩
  | producer failing => exact ⟨rfl, Option.isSome_map⟩

/-- In everything that a stage without counts becomes, the counters add up: every payload is
refused, a control signal or processed, every processed event is written or not and is routed in one
way, and masker, writer and producer have counted what the stage has. The stage masks and forwards
in the end if it does so in the beginning. -/
theorem counters_add_up {start reached : Stage Store MemoryProducer}
    (uncounted : start.Uncounted) (run : Relation.ReflTransGen Follows start reached) :
    reached.Balanced ∧ reached.masker.isSome = start.masker.isSome ∧
      reached.producer.isSome = start.producer.isSome := by
  induction run with
  | refl => exact ⟨uncounted.balanced, rfl, rfl⟩
  | tail run follows inductionHypothesis =>
    obtain ⟨balanced, masks, forwards⟩ := inductionHypothesis
    obtain ⟨stillMasks, stillForwards⟩ := follows.keeps
    exact ⟨balanced.follows follows, stillMasks.trans masks, stillForwards.trans forwards⟩

/-- An empty payload is refused, and an order is neither written nor forwarded while store and
producer fail: all of that is accounted for. -/
theorem counters_add_up_of_order :
    ∃ start reached : Stage MemoryStore MemoryProducer,
      start.Uncounted ∧ Relation.ReflTransGen Follows start reached ∧
        reached.counters =
          { received := 2, parseErrors := 1, writesFailed := 1, forwardsFailed := 1 } ∧
        reached.Balanced ∧ reached.masker.isSome = true ∧ reached.producer.isSome = true := by
  let start := (orderStage "bronze").withMasking true
  have uncounted : start.Uncounted :=
    ⟨rfl, fun _ same => (Option.some.inj same).symm, rfl,
      fun _ same => congrArg MemoryProducer.counters (Option.some.inj same).symm⟩
  let refused := (start.invoke .empty []).2.1
  let unwritten : Stage MemoryStore MemoryProducer :=
    { refused with writer := { refused.writer with store := ⟨[], 0, true, none⟩ } }
  let unlucky : Stage MemoryStore MemoryProducer :=
    { unwritten with
      producer := unwritten.producer.map fun present => { present with failing := true } }
  have before : Relation.ReflTransGen Follows start unlucky :=
    ((Relation.ReflTransGen.single (.invoke .empty [])).tail (.store _)).tail (.producer true)
  have run := before.tail (.invoke .empty order.bytes)
  obtain ⟨balanced, masks, forwards⟩ := counters_add_up uncounted run
  refine ⟨start, _, uncounted, run, ?_, balanced, masks, forwards⟩
  have ordinary : unlucky.isControl order = false := by decide
  have claimed : unlucky.book.find? order = some orderRule :=
    (RuleIndex.find?_ofRules [orderRule] order).trans find?_orderRule
  have rejected : (unlucky.routeOf order).1 =
      .failed "orders" (.forward (.ofStage "silver") (.rejected "silver-ingress" 1)) := by
    rw [routeOf, claimed]
    rfl
  have unmasked : (maskWith unlucky.masker order).2.1 = false := by
    decide +kernel
  rw [invoke_of_ordinary unlucky .empty eventOf_order ordinary, rejected, unmasked]
  rfl

end Stage

end EventRelay
