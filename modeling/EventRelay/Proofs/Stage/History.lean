import EventRelay.Proofs.Stage.Invocation
import EventRelay.Proofs.Store.Memory

/-!
# Nothing is lost or doubled in a run

A run takes a stage over a store and a producer in memory through invocations, changes of the rules
at hand, reloads and failures switched on and off. The invocations of a run, each with the stage as
it was, are authoritative: they determine the records of every path and the sent messages, one for
one and in order.
-/

namespace EventRelay.Stage

open Text (Bytes)

/-- The stage whose store fails or works from now on. -/
def failStore (stage : Stage MemoryStore MemoryProducer) (failing : Bool) :
    Stage MemoryStore MemoryProducer :=
  { stage with writer := { stage.writer with store := { stage.writer.store with failing } } }

/-- The stage whose producer fails or works from now on. -/
def failProducer (stage : Stage MemoryStore MemoryProducer) (failing : Bool) :
    Stage MemoryStore MemoryProducer :=
  { stage with producer := stage.producer.map fun producer => { producer with failing } }

/-- A stage in memory and the files around it. -/
structure Situation where
  stage : Stage MemoryStore MemoryProducer
  files : FileTree

/-- One step of a run. -/
inductive Step
  | invoke (payload : Bytes)
  /-- Other rules are at hand. -/
  | supply (rules : List Rule)
  | reload
  | failStore (failing : Bool)
  | failProducer (failing : Bool)

/-- An invocation, with the stage as it was before. -/
structure Invocation where
  stage : Stage MemoryStore MemoryProducer
  payload : Bytes

/-- Where a step leads. -/
def Step.apply (step : Step) (before : Situation) : Situation :=
  match step with
  | .invoke payload =>
    let (_, stage, files) := before.stage.invoke before.files payload
    ⟨stage, files⟩
  | .supply rules => { before with stage := before.stage.supply rules }
  | .reload => { before with stage := (before.stage.reload before.files).2 }
  | .failStore failing => { before with stage := before.stage.failStore failing }
  | .failProducer failing => { before with stage := before.stage.failProducer failing }

/-- The invocation of a step, if it is one. -/
def Step.invocation? (step : Step) (before : Situation) : Option Invocation :=
  match step with
  | .invoke payload => some ⟨before.stage, payload⟩
  | _ => none

/-- A situation that steps lead to from a start, and the invocations on the way, in order. -/
inductive Reaches (start : Situation) : List Invocation → Situation → Prop
  | start : Reaches start [] start
  | step {history : List Invocation} {before : Situation} (reaches : Reaches start history before)
      (step : Step) :
      Reaches start (history ++ (step.invocation? before).toList) (step.apply before)

namespace Invocation

/-- The event of an invocation, if the payload spells an object that is no control signal. -/
def event? (invocation : Invocation) : Option Json :=
  match eventOf invocation.payload with
  | .error _ => none
  | .ok event => if invocation.stage.isControl event then none else some event

/-- The stage that follows in the chain of the first published rule that claims an event. -/
def next? (invocation : Invocation) (event : Json) : Option String :=
  nextStage? (invocation.stage.book.published.rules.toList.find? fun rule => rule.claims event)
    invocation.stage.name

/-- What an invocation stores under a path: the body of its event, if the path is that of the
event and the store was not failing. -/
def storedAt (path : String) (invocation : Invocation) : Option Bytes :=
  invocation.event?.bind fun event =>
    if invocation.stage.writer.store.failing = false ∧
        path = invocation.stage.writer.pathOf (Destination.ofEvent event) then
      some (invocation.stage.bodyOf event)
    else none

/-- Whether the producer was failing. -/
def rejects (invocation : Invocation) : Bool :=
  invocation.stage.producer.any fun producer => producer.failing

/-- What an invocation sends: the body of its event to the stage that follows, if there is one and
the producer was not failing. -/
def sentBy (invocation : Invocation) : Option SentMessage :=
  invocation.event?.bind fun event =>
    (invocation.next? event).bind fun next =>
      if invocation.rejects then none
      else some ⟨next ++ "-ingress", "message", invocation.stage.bodyOf event⟩

end Invocation

/-- A stage at the start of a run, with nothing stored, nothing sent and rules that have been
loaded or none. -/
structure Fresh (stage : Stage MemoryStore MemoryProducer) : Prop where
  nothingStored : ∀ path, stage.writer.store.records path = []
  prompt : stage.writer.store.delay = none
  nothingSent : ∃ producer, stage.producer = some producer ∧ producer.sent = []
  published : ∃ rules, stage.book.published = RuleIndex.ofRules rules

/-- What holds along a run: the invocations so far determine what is stored and sent. -/
structure Accounts (history : List Invocation) (stage : Stage MemoryStore MemoryProducer) :
    Prop where
  records : ∀ path,
    stage.writer.store.records path = history.filterMap (Invocation.storedAt path)
  prompt : stage.writer.store.delay = none
  sent : ∃ producer, stage.producer = some producer ∧
    producer.sent = history.filterMap Invocation.sentBy
  published : ∃ rules, stage.book.published = RuleIndex.ofRules rules

/-- A load publishes rules or leaves the published ones. -/
theorem published_reload {book : RuleBook} (files : FileTree)
    (published : ∃ rules, book.published = RuleIndex.ofRules rules) :
    ∃ rules, (book.reload files).2.published = RuleIndex.ofRules rules := by
  unfold RuleBook.reload RuleBook.publish
  cases book.source.load files with
  | error problem => exact published
  | ok report => exact ⟨report.rules, rfl⟩

/-- The published rule for an event is the first one that claims it. -/
theorem find?_of_published {book : RuleBook}
    (published : ∃ rules, book.published = RuleIndex.ofRules rules) (event : Json) :
    book.find? event = book.published.rules.toList.find? fun rule => rule.claims event := by
  obtain ⟨rules, loaded⟩ := published
  rw [RuleBook.find?, loaded, RuleIndex.find?_ofRules, RuleIndex.rules_ofRules]

/-- One invocation stores and sends the same body. -/
theorem value_of_sentBy {invocation : Invocation} {path : String} {body : Bytes}
    {message : SentMessage} (stored : invocation.storedAt path = some body)
    (sent : invocation.sentBy = some message) : message.value = body := by
  unfold Invocation.storedAt at stored
  unfold Invocation.sentBy at sent
  cases arrives : invocation.event? with
  | none => simp [arrives] at stored
  | some event =>
    rw [arrives, Option.bind_some] at stored sent
    obtain ⟨next, -, taken⟩ := Option.bind_eq_some_iff.mp sent
    split at stored
    · split at taken
      · simp at taken
      · obtain rfl := Option.some.inj stored
        obtain rfl := Option.some.inj taken
        rfl
    · simp at stored

/-! ## One step -/

/-- A payload that is no event, or a control signal, is passed over. -/
theorem passes_of_nothing {stage : Stage MemoryStore MemoryProducer} {payload : Bytes}
    (nothing : (Invocation.mk stage payload).event? = none) (files : FileTree) :
    stage.Passes files (stage.invoke files payload) := by
  unfold Invocation.event? at nothing
  cases parsed : eventOf payload with
  | error problem => exact (passes_of_refused stage files parsed).2.2
  | ok event =>
    have control : stage.isControl event = true := by
      by_contra ordinary
      simp [parsed, ordinary] at nothing
    exact (passes_of_control stage files parsed control).2

/-- What a step does: its invocation, if it is one, says what is stored and sent in addition. -/
structure Advances (invocation? : Option Invocation)
    (before after : Stage MemoryStore MemoryProducer) : Prop where
  records : ∀ path, after.writer.store.records path =
    before.writer.store.records path ++ (invocation?.bind (Invocation.storedAt path)).toList
  prompt : after.writer.store.delay = before.writer.store.delay
  sent : ∀ producer, before.producer = some producer →
    ∃ later, after.producer = some later ∧
      later.sent = producer.sent ++ (invocation?.bind Invocation.sentBy).toList
  published : ∃ rules, after.book.published = RuleIndex.ofRules rules

/-- An invocation that is not processed stores and sends nothing. -/
theorem advances_of_passes {stage : Stage MemoryStore MemoryProducer} {files : FileTree}
    {payload : Bytes} (passes : stage.Passes files (stage.invoke files payload))
    (nothing : (Invocation.mk stage payload).event? = none)
    (published : ∃ rules, (stage.invoke files payload).2.1.book.published =
      RuleIndex.ofRules rules) :
    Advances (some ⟨stage, payload⟩) stage (stage.invoke files payload).2.1 where
  records path := by
    rw [passes.writer, Option.bind_some, Invocation.storedAt, nothing]
    simp
  prompt := by rw [passes.writer]
  sent producer present := by
    refine ⟨producer, passes.producer.trans present, ?_⟩
    rw [Option.bind_some, Invocation.sentBy, nothing]
    simp
  published := published

/-- An invocation that is processed stores and sends what it says. -/
theorem advances_of_processes {stage : Stage MemoryStore MemoryProducer} {files : FileTree}
    {payload : Bytes} {event : Json}
    (processes : stage.Processes files event (stage.invoke files payload))
    (arrives : (Invocation.mk stage payload).event? = some event)
    (prompt : stage.writer.store.delay = none)
    (published : ∃ rules, stage.book.published = RuleIndex.ofRules rules) :
    Advances (some ⟨stage, payload⟩) stage (stage.invoke files payload).2.1 := by
  obtain ⟨grows, -, -⟩ := TableWriter.grows_append prompt files (Destination.ofEvent event)
    (stage.bodyOf event)
  rw [← processes.writer] at grows
  refine ⟨fun path => ?_, grows.delay, fun producer present => ?_, ?_⟩
  · rw [grows.records, Option.bind_some, Invocation.storedAt, arrives, Option.bind_some]
    dsimp only
    split <;> rfl
  · have after := processes.producer
    rw [present, route_snd, find?_of_published published] at after
    have sent : (Invocation.mk stage payload).sentBy =
        ((Invocation.mk stage payload).next? event).bind fun next =>
          if producer.failing then none
          else some ⟨next ++ "-ingress", "message", stage.bodyOf event⟩ := by
      rw [Invocation.sentBy, arrives, Option.bind_some]
      simp [Invocation.rejects, present]
    rw [Option.bind_some, sent, Invocation.next?]
    cases following : nextStage? (stage.book.published.rules.toList.find? fun rule =>
        rule.claims event) stage.name with
    | none =>
      rw [following] at after
      exact ⟨producer, after, by simp⟩
    | some next =>
      rw [following] at after
      have kept := (producer.send_snd (Target.ofStage next).topic messageKey (stage.bodyOf event)
        stage.sendTimeout).1
      refine ⟨_, after, kept.trans ?_⟩
      rw [Option.bind_some]
      split <;> rfl
  · rw [processes.book]
    exact published

/-- A step that is no invocation stores and sends nothing. -/
theorem advances_of_none {before after : Stage MemoryStore MemoryProducer}
    (records : ∀ path, after.writer.store.records path = before.writer.store.records path)
    (prompt : after.writer.store.delay = before.writer.store.delay)
    (sent : ∀ producer, before.producer = some producer →
      ∃ later, after.producer = some later ∧ later.sent = producer.sent)
    (published : ∃ rules, after.book.published = RuleIndex.ofRules rules) :
    Advances none before after where
  records path := by simp [records]
  prompt := prompt
  sent := by simpa using sent
  published := published

/-- A step does what its invocation says, and nothing if it is none. -/
theorem advances_apply (step : Step) {before : Situation}
    (prompt : before.stage.writer.store.delay = none)
    (published : ∃ rules, before.stage.book.published = RuleIndex.ofRules rules) :
    Advances (step.invocation? before) before.stage (step.apply before).stage := by
  cases step with
  | invoke payload =>
    cases parsed : eventOf payload with
    | error problem =>
      obtain ⟨-, book, passes⟩ := passes_of_refused before.stage before.files parsed
      have nothing : (Invocation.mk before.stage payload).event? = none := by
        simp [Invocation.event?, parsed]
      exact advances_of_passes passes nothing (by rw [book]; exact published)
    | ok event =>
      by_cases control : before.stage.isControl event = true
      · obtain ⟨book, passes⟩ := passes_of_control before.stage before.files parsed control
        have nothing : (Invocation.mk before.stage payload).event? = none := by
          simp [Invocation.event?, parsed, control]
        exact advances_of_passes passes nothing
          (by rw [book]; exact published_reload before.files published)
      · rw [Bool.not_eq_true] at control
        have processes := processes_of_ordinary before.stage before.files parsed control
        have arrives : (Invocation.mk before.stage payload).event? = some event := by
          simp [Invocation.event?, parsed, control]
        exact advances_of_processes processes arrives prompt published
  | supply rules =>
    exact advances_of_none (fun _ => rfl) rfl (fun producer present => ⟨producer, present, rfl⟩)
      published
  | reload =>
    exact advances_of_none (fun _ => rfl) rfl (fun producer present => ⟨producer, present, rfl⟩)
      (published_reload before.files published)
  | failStore failing =>
    exact advances_of_none (fun _ => rfl) rfl (fun producer present => ⟨producer, present, rfl⟩)
      published
  | failProducer failing =>
    refine advances_of_none (fun _ => rfl) rfl (fun producer present => ?_) published
    exact ⟨{ producer with failing }, congrArg (Option.map _) present, rfl⟩

/-! ## Whole runs -/

/-- What one more invocation adds. -/
theorem filterMap_append_toList {Effect : Type} (effect : Invocation → Option Effect)
    (history : List Invocation) (more : Option Invocation) :
    (history ++ more.toList).filterMap effect =
      history.filterMap effect ++ (more.bind effect).toList := by
  rw [List.filterMap_append]
  cases more with
  | none => rfl
  | some invocation =>
    rw [Option.toList_some, List.filterMap_cons, Option.bind_some]
    cases effect invocation <;> rfl

/-- The invocations on the way account for what is stored and sent. -/
theorem accounts_of_reaches {start : Situation} (fresh : Fresh start.stage)
    {history : List Invocation} {reached : Situation} (reaches : Reaches start history reached) :
    Accounts history reached.stage := by
  induction reaches with
  | start =>
    exact ⟨fun path => fresh.nothingStored path, fresh.prompt, fresh.nothingSent, fresh.published⟩
  | step reaches step inductionHypothesis =>
    obtain ⟨records, prompt, ⟨producer, present, sent⟩, published⟩ := inductionHypothesis
    have advances := advances_apply step prompt published
    obtain ⟨later, still, more⟩ := advances.sent producer present
    refine ⟨fun path => ?_, advances.prompt.trans prompt, ⟨later, still, ?_⟩, advances.published⟩
    · rw [advances.records, records, filterMap_append_toList]
    · rw [more, sent, filterMap_append_toList]

/-- In every situation of a run the records of every path and the sent messages are those of the
invocations on the way, one for one and in order; one invocation stores and sends the same body, and
a payload that is no event or a control signal stores and sends nothing. -/
theorem effects_of_history {start : Situation} (fresh : Fresh start.stage)
    {history : List Invocation} {reached : Situation} (reaches : Reaches start history reached) :
    (∀ path, reached.stage.writer.store.records path =
      history.filterMap (Invocation.storedAt path)) ∧
    (∃ producer, reached.stage.producer = some producer ∧
      producer.sent = history.filterMap Invocation.sentBy) ∧
    (∀ invocation ∈ history, ∀ path body message, invocation.storedAt path = some body →
      invocation.sentBy = some message → message.value = body) ∧
    (∀ payload, (Invocation.mk reached.stage payload).event? = none →
      ((Step.invoke payload).apply reached).stage.writer = reached.stage.writer ∧
        ((Step.invoke payload).apply reached).stage.producer = reached.stage.producer) := by
  have accounts := accounts_of_reaches fresh reaches
  refine ⟨accounts.records, accounts.sent, ?_, ?_⟩
  · intro invocation _ path body message stored sent
    exact value_of_sentBy stored sent
  · intro payload nothing
    have passes := passes_of_nothing nothing reached.files
    exact ⟨passes.writer, passes.producer⟩

/-- A stage in memory begins with nothing stored and nothing sent. -/
theorem fresh_orderStage (name : String) : Fresh (orderStage name) where
  nothingStored _ := rfl
  prompt := rfl
  nothingSent := ⟨.empty, rfl, rfl⟩
  published := ⟨[orderRule], rfl⟩

/-- Of an empty payload and an order after it, the order alone is stored and sent, although the
store has failed in between. -/
theorem effects_of_order :
    ∃ (start reached : Situation) (history : List Invocation), Fresh start.stage ∧
      Reaches start history reached ∧
      history.map Invocation.payload = [[], order.bytes] ∧
      reached.stage.writer.store.records "p1/order" = [order.bytes] ∧
      ∃ producer, reached.stage.producer = some producer ∧
        producer.sent = [⟨"silver-ingress", "message", order.bytes⟩] := by
  let start : Situation := ⟨orderStage "bronze", .empty⟩
  let refused : Situation := (Step.invoke []).apply start
  let again : Situation := (Step.failStore false).apply ((Step.failStore true).apply refused)
  have before : Reaches start [⟨start.stage, []⟩] again :=
    ((Reaches.start.step (.invoke [])).step (.failStore true)).step (.failStore false)
  have reaches := before.step (.invoke order.bytes)
  have effects := effects_of_history (fresh_orderStage "bronze") reaches
  have arrives : (Invocation.mk again.stage order.bytes).event? = some order := by
    have ordinary : again.stage.isControl order = false := by decide
    simp [Invocation.event?, eventOf_order, ordinary]
  have goes : (Invocation.mk again.stage order.bytes).next? order = some "silver" := by
    have published : again.stage.book.published.rules.toList = [orderRule] := by
      have loaded : again.stage.book.published = RuleIndex.ofRules [orderRule] := rfl
      rw [loaded, RuleIndex.rules_ofRules]
    rw [Invocation.next?, published, find?_orderRule]
    rfl
  have stored : (Invocation.mk again.stage order.bytes).storedAt "p1/order" =
      some order.bytes := by
    rw [Invocation.storedAt, arrives]
    rfl
  have sent : (Invocation.mk again.stage order.bytes).sentBy =
      some ⟨"silver-ingress", "message", order.bytes⟩ := by
    rw [Invocation.sentBy, arrives, Option.bind_some, goes]
    rfl
  have nothing : (Invocation.mk start.stage []).event? = none := rfl
  refine ⟨start, _, _, fresh_orderStage "bronze", reaches, rfl, ?_, ?_⟩
  · have notStored : (Invocation.mk start.stage []).storedAt "p1/order" = none := by
      rw [Invocation.storedAt, nothing, Option.bind_none]
    rw [effects.1]
    simp [Step.invocation?, stored, notStored]
  · have notSent : (Invocation.mk start.stage []).sentBy = none := by
      rw [Invocation.sentBy, nothing, Option.bind_none]
    obtain ⟨producer, present, messages⟩ := effects.2.1
    refine ⟨producer, present, messages.trans ?_⟩
    simp [Step.invocation?, sent, notSent]

end EventRelay.Stage
