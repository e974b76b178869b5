import EventRelay.Proofs.Json.Depth
import EventRelay.Proofs.Json.RoundTrip
import EventRelay.Proofs.Stage.Invocation

/-!
# An event walks its whole chain

The stages of a relay publish the same rules and do not mask. The message that a stage sends is the
event as it is written, so it is the same event that arrives at the next stage, with the same
destination and the same rule. Since a chain names no stage twice, the walk goes through the rest of
the chain once and ends.
-/

namespace EventRelay

open Text (Bytes)

/-- A producer whose accepted messages can be looked at. -/
class Journal (π : Type) [Producer π] where
  sent : π → List SentMessage
  sent_send : ∀ (producer : π) (topic key : String) (value : Bytes) (limit : Duration),
    (Producer.send producer topic key value limit).1 = .ok () →
      sent (Producer.send producer topic key value limit).2 = sent producer ++ [⟨topic, key, value⟩]

/-- The producer in memory keeps its messages. -/
instance : Journal MemoryProducer where
  sent producer := producer.sent
  sent_send producer topic key value limit accepted := by
    have taken : (producer.send topic key value).1 = .ok () := accepted
    change (producer.send topic key value).2.sent = _
    unfold MemoryProducer.send at taken ⊢
    dsimp only at taken ⊢
    split
    · rename_i failing
      simp [failing] at taken
    · rfl

namespace Stage

variable {Store π : Type} [TableStore Store] [Producer π]

/-- The event that a payload spells is in normal form and not too deep, so it is read back from its
own bytes. -/
theorem eventOf_bytes {payload : Bytes} {event : Json} (arrives : eventOf payload = .ok event)
    (integers : ∀ number ∈ event.numbers, number.isInteger = true) :
    eventOf event.bytes = .ok event := by
  obtain ⟨parsed, object⟩ := eventOf_eq_ok_iff.mp arrives
  obtain ⟨normal, shallow⟩ := Json.normal_and_depth_le_of_parse parsed
  have again := Json.parse_bytes (Json.readable_of_integers integers) shallow
  rw [normal] at again
  exact eventOf_eq_ok_iff.mpr ⟨again, object⟩

/-- A stage of a relay that publishes the rules, does not mask, and whose store and producer take
the event. -/
structure Serves (rules : List Rule) (code : String) (event : Json) (stage : Stage Store π)
    (files : FileTree) : Prop where
  published : stage.book.published = RuleIndex.ofRules rules
  controlCode : stage.controlCode = code
  unmasked : stage.masker = none
  stores : ∃ receipt,
    (stage.writer.append files (Destination.ofEvent event) event.bytes).1 = .ok receipt
  sends : ∀ next, (Producer.sendThrough stage.producer (Target.ofStage next).topic messageKey
    event.bytes stage.sendTimeout).1 = .ok ()

/-- What becomes of an event under a rule, given the stage that follows. -/
def onward (rule : Rule) : Option String → RouteOutcome
  | some next => .forwarded rule.source (.ofStage next)
  | none => .terminal rule.source

/-- The message that goes to the stage that follows, if there is one. -/
def messageTo (body : Bytes) : Option String → List SentMessage
  | some next => [⟨(Target.ofStage next).topic, messageKey, body⟩]
  | none => []

variable [Journal π]

/-- The messages that have been accepted from a stage. -/
def sent (stage : Stage Store π) : List SentMessage :=
  (stage.producer.map Journal.sent).getD []

/-- What a stage of a relay does with an event, given the stage that follows: the event is written
to its table, matched to its rule, and sent on as the bytes that were written. -/
structure Carries (stage : Stage Store π) (files : FileTree) (payload : Bytes) (event : Json)
    (rule : Rule) (next : Option String) : Prop where
  report : ∃ receipt, (stage.invoke files payload).1 =
    .ok (.processed (Destination.ofEvent event) false (.ok receipt) (onward rule next))
  matched : stage.book.find? event = some rule
  written : (stage.invoke files payload).2.1.writer =
    (stage.writer.append files (Destination.ofEvent event) event.bytes).2.1
  sent : (stage.invoke files payload).2.1.sent = stage.sent ++ messageTo event.bytes next
  quiet : next = none → (stage.invoke files payload).2.1.producer = stage.producer

/-- The stages that an event visits while every message is taken to the stage that reads its
topic. -/
inductive Walk (serves : Stage Store π → FileTree → Prop) : String → Bytes → List String → Prop
  | rests {stage : Stage Store π} {files : FileTree} {payload : Bytes}
      (service : serves stage files)
      (quiet : (stage.invoke files payload).2.1.sent = stage.sent) :
      Walk serves stage.name payload [stage.name]
  | moves {stage : Stage Store π} {files : FileTree} {payload : Bytes} {message : SentMessage}
      {next : String} {visited : List String} (service : serves stage files)
      (sends : (stage.invoke files payload).2.1.sent = stage.sent ++ [message])
      (reads : message.topic = (Target.ofStage next).topic)
      (later : Walk serves next message.value visited) :
      Walk serves stage.name payload (stage.name :: visited)

/-- Stages that read the same topic have the same name. -/
theorem eq_of_topic_eq {first second : String}
    (same : (Target.ofStage first).topic = (Target.ofStage second).topic) : first = second := by
  have letters := congrArg String.toList same
  simp only [Target.ofStage, String.toList_append] at letters
  exact String.toList_inj.mp (List.append_cancel_right letters)

/-! ## One stage -/

/-- An accepted message is the one message more. -/
theorem sent_sendThrough {producer : Option π} {topic key : String} {body : Bytes}
    {limit : Duration}
    (accepted : (Producer.sendThrough producer topic key body limit).1 = .ok ()) :
    (((Producer.sendThrough producer topic key body limit).2.map Journal.sent).getD []) =
      (producer.map Journal.sent).getD [] ++ [⟨topic, key, body⟩] := by
  cases producer with
  | none => simp [Producer.sendThrough] at accepted
  | some producer => exact Journal.sent_send producer topic key body limit accepted

section Chain

variable {rules : List Rule} {code : String} {event : Json} {rule : Rule} {chain : Chain}

/-- A stage of a relay carries an event whose rule has a chain through it. -/
theorem carries_of_serves (ordinary : isControlFor code event = false)
    (first : (rules.find? fun rule => rule.claims event) = some rule)
    (chained : rule.chain = some chain) (distinct : chain.stages.Nodup) {place : Nat}
    {stage : Stage Store π} {files : FileTree} (service : Serves rules code event stage files)
    (here : chain.stages[place]? = some stage.name) {payload : Bytes}
    (arrives : eventOf payload = .ok event) :
    Carries stage files payload event rule chain.stages[place + 1]? := by
  have matched : stage.book.find? event = some rule := by
    rw [RuleBook.find?, service.published, RuleIndex.find?_ofRules, first]
  have body : stage.bodyOf event = event.bytes := by
    rw [bodyOf, service.unmasked]
    rfl
  have unmasked : (maskWith stage.masker event).2.1 = false := by
    rw [service.unmasked]
    rfl
  have processed := processes_of_ordinary stage files arrives
    (by rw [isControl, service.controlCode, ordinary])
  obtain ⟨receipt, stored⟩ := service.stores
  have successor : chain.successor stage.name = .ofNext? chain.stages[place + 1]? :=
    Chain.successorIn_of_getElem? distinct here
  have report := processed.report
  have producer := processed.producer
  rw [body, unmasked, stored, matched] at report
  rw [body, matched, route_snd] at producer
  have written := processed.writer
  rw [body] at written
  cases following : chain.stages[place + 1]? with
  | some next =>
    rw [following] at successor
    have goes : nextStage? (some rule) stage.name = some next := by
      simp [nextStage?, chained, successor, Successor.ofNext?]
    rw [route_fst_of_next chained successor (service.sends next)] at report
    rw [goes] at producer
    refine ⟨⟨receipt, report⟩, matched, written, ?_, by simp⟩
    rw [sent, producer]
    exact sent_sendThrough (service.sends next)
  | none =>
    rw [following] at successor
    have ends : nextStage? (some rule) stage.name = none := by
      simp [nextStage?, chained, successor, Successor.ofNext?]
    rw [route_fst_of_last chained successor] at report
    rw [ends] at producer
    refine ⟨⟨receipt, report⟩, matched, written, ?_, fun _ => producer⟩
    rw [sent, producer, messageTo, List.append_nil, sent]

/-! ## The whole walk -/

/-- The rest of a chain from a stage on begins with that stage. -/
theorem drop_of_getElem? {stages : List String} {place : Nat} {name : String}
    (here : stages[place]? = some name) :
    stages.drop place = name :: stages.drop (place + 1) := by
  rw [List.drop_eq_getElem?_toList_append, here]
  rfl

/-- A walk goes through the rest of the chain. -/
theorem visited_of_walk (ordinary : isControlFor code event = false)
    (first : (rules.find? fun rule => rule.claims event) = some rule)
    (chained : rule.chain = some chain) (distinct : chain.stages.Nodup)
    (again : eventOf event.bytes = .ok event) {name : String} {payload : Bytes}
    {visited : List String}
    (walk : Walk (Serves rules code event : Stage Store π → FileTree → Prop) name payload visited)
    {place : Nat} (here : chain.stages[place]? = some name)
    (arrives : eventOf payload = .ok event) : visited = chain.stages.drop place := by
  induction walk generalizing place with
  | rests service quiet =>
    have carried := carries_of_serves ordinary first chained distinct service here arrives
    have sent := carried.sent
    rw [quiet, List.self_eq_append_right] at sent
    rw [drop_of_getElem? here]
    cases following : chain.stages[place + 1]? with
    | none => rw [List.drop_eq_nil_of_le (List.getElem?_eq_none_iff.mp following)]
    | some next => simp [following, messageTo] at sent
  | @moves stage _ _ message next _ service sends reads later inductionHypothesis =>
    have carried := carries_of_serves ordinary first chained distinct service here arrives
    have sent := carried.sent
    rw [sends, List.append_cancel_left_eq] at sent
    cases following : chain.stages[place + 1]? with
    | none => simp [following, messageTo] at sent
    | some follower =>
      rw [following, messageTo, List.cons_eq_cons] at sent
      obtain ⟨rfl, -⟩ := sent
      obtain rfl := eq_of_topic_eq reads
      rw [drop_of_getElem? here, inductionHypothesis following again]

/-- From any stage of the chain there is a walk, if every name in the chain has a stage. -/
theorem exists_walk (ordinary : isControlFor code event = false)
    (first : (rules.find? fun rule => rule.claims event) = some rule)
    (chained : rule.chain = some chain) (distinct : chain.stages.Nodup)
    (again : eventOf event.bytes = .ok event)
    (staffed : ∀ name ∈ chain.stages, ∃ (stage : Stage Store π) (files : FileTree),
      Serves rules code event stage files ∧ stage.name = name)
    {name : String} {payload : Bytes} {place : Nat} (here : chain.stages[place]? = some name)
    (arrives : eventOf payload = .ok event) :
    Walk (Serves rules code event : Stage Store π → FileTree → Prop) name payload
      (chain.stages.drop place) := by
  obtain ⟨left, leftDef⟩ : ∃ left, left = chain.stages.length - place := ⟨_, rfl⟩
  induction left generalizing place name payload with
  | zero =>
    have inside := (List.getElem?_eq_some_iff.mp here).1
    omega
  | succ left inductionHypothesis =>
    obtain ⟨stage, files, service, rfl⟩ := staffed name (List.mem_of_getElem? here)
    have carried := carries_of_serves ordinary first chained distinct service here arrives
    rw [drop_of_getElem? here]
    cases following : chain.stages[place + 1]? with
    | none =>
      have sent := carried.sent
      rw [following, messageTo, List.append_nil] at sent
      rw [List.drop_eq_nil_of_le (List.getElem?_eq_none_iff.mp following)]
      exact .rests service sent
    | some next =>
      have sent := carried.sent
      rw [following] at sent
      exact .moves service sent rfl (inductionHypothesis following again (by omega))

/-- An event walks through the rest of its chain: the stage at a place of the chain carries it and
sends it to the next place, where the same event arrives, and the walk from there ends at the last
stage. -/
theorem walks_chain {text : String} (parsed : Chain.parse text = .ok chain)
    (integers : ∀ number ∈ event.numbers, number.isInteger = true)
    (ordinary : isControlFor code event = false)
    (first : (rules.find? fun rule => rule.claims event) = some rule)
    (chained : rule.chain = some chain)
    (staffed : ∀ name ∈ chain.stages, ∃ (stage : Stage Store π) (files : FileTree),
      Serves rules code event stage files ∧ stage.name = name)
    {place : Nat} {name : String} (here : chain.stages[place]? = some name) {payload : Bytes}
    (arrives : eventOf payload = .ok event) :
    (∀ (stage : Stage Store π) (files : FileTree), Serves rules code event stage files →
      stage.name = name → Carries stage files payload event rule chain.stages[place + 1]?) ∧
    (∀ next, chain.stages[place + 1]? = some next → eventOf event.bytes = .ok event ∧
      ∀ (stage : Stage Store π) (files : FileTree), Serves rules code event stage files →
        stage.name = next →
          Carries stage files event.bytes event rule chain.stages[place + 2]?) ∧
    (∀ visited,
      Walk (Serves rules code event : Stage Store π → FileTree → Prop) name payload visited ↔
        visited = chain.stages.drop place) ∧
    (chain.stages.drop place).Nodup := by
  have distinct := Chain.nodup_of_parse parsed
  have again := eventOf_bytes arrives integers
  refine ⟨?_, ?_, ?_, distinct.sublist (List.drop_sublist _ _)⟩
  · rintro stage files service rfl
    exact carries_of_serves ordinary first chained distinct service here arrives
  · intro next following
    refine ⟨again, ?_⟩
    rintro stage files service rfl
    exact carries_of_serves ordinary first chained distinct service following again
  · intro visited
    constructor
    · intro walk
      exact visited_of_walk ordinary first chained distinct again walk here arrives
    · rintro rfl
      exact exists_walk ordinary first chained distinct again staffed here arrives

end Chain

/-! ## Two stages in memory -/

/-- Stores and producers in memory take every event. -/
theorem serves_orderStage (name : String) :
    Serves [orderRule] "reload" order (orderStage name) .empty where
  published := rfl
  controlCode := rfl
  unmasked := rfl
  stores := ⟨_, rfl⟩
  sends _ := rfl

/-- An order goes through both stages of its chain. -/
theorem walks_bronze_silver :
    Chain.parse "bronze,silver" = .ok ⟨["bronze", "silver"]⟩ ∧
      (∀ number ∈ order.numbers, number.isInteger = true) ∧
      isControlFor "reload" order = false ∧
      ([orderRule].find? fun rule => rule.claims order) = some orderRule ∧
      eventOf order.bytes = .ok order ∧
      Carries (orderStage "bronze") .empty order.bytes order orderRule (some "silver") ∧
      ∀ visited, Walk (Serves [orderRule] "reload" order :
        Stage MemoryStore MemoryProducer → FileTree → Prop) "bronze" order.bytes visited ↔
          visited = ["bronze", "silver"] := by
  have parsed : Chain.parse "bronze,silver" = .ok ⟨["bronze", "silver"]⟩ := rfl
  have integers : ∀ number ∈ order.numbers, number.isInteger = true := by decide
  have ordinary : isControlFor "reload" order = false := by decide
  have walks := walks_chain parsed integers ordinary find?_orderRule rfl
    (fun name _ => ⟨orderStage name, .empty, serves_orderStage name, rfl⟩)
    (show (["bronze", "silver"] : List String)[0]? = some "bronze" from rfl) eventOf_order
  exact ⟨parsed, integers, ordinary, find?_orderRule, eventOf_order,
    walks.1 (orderStage "bronze") .empty (serves_orderStage "bronze") rfl, walks.2.2.1⟩

end Stage

end EventRelay
