import EventRelay.Proofs.Chain
import EventRelay.Proofs.Json.RoundTrip
import EventRelay.Proofs.Rule.FirstMatch
import EventRelay.Stage.Assembly

/-!
# What one invocation does

A payload is refused, consumed as a control signal, or processed. A refused payload only moves
counters, and a control signal also the published rules. A processed one is written once and
forwarded at most once, in both cases as the same body, and leaves the rules alone.
-/

namespace EventRelay.Stage

open Text (Bytes)

variable {Store π : Type} [TableStore Store] [Producer π]

/-- The bytes as which an event is written and forwarded. -/
def bodyOf (stage : Stage Store π) (event : Json) : Bytes :=
  (maskWith stage.masker event).1.bytes

/-- The append of an event to its table. -/
def writeOf (stage : Stage Store π) (files : FileTree) (event : Json) :
    Except WriteError Receipt × TableWriter Store × FileTree :=
  stage.writer.append files (Destination.ofEvent event) (stage.bodyOf event)

/-- The route of an event through the chain of its rule. -/
def routeOf (stage : Stage Store π) (event : Json) : RouteOutcome × Option π :=
  route stage.name stage.producer stage.sendTimeout (stage.book.find? event) (stage.bodyOf event)

/-- What a stage is configured with and no invocation changes. -/
structure SameSettings (before after : Stage Store π) : Prop where
  name : after.name = before.name
  controlCode : after.controlCode = before.controlCode
  sendTimeout : after.sendTimeout = before.sendTimeout
  masks : after.masker.isSome = before.masker.isSome

/-- What processing an event does: one append, at most one send, and nothing to the rules. -/
structure Processes (stage : Stage Store π) (files : FileTree) (event : Json)
    (outcome : Except EventError Report × Stage Store π × FileTree) : Prop where
  report : outcome.1 = .ok (.processed (Destination.ofEvent event)
    (maskWith stage.masker event).2.1
    (stage.writer.append files (Destination.ofEvent event) (stage.bodyOf event)).1
    (route stage.name stage.producer stage.sendTimeout (stage.book.find? event)
      (stage.bodyOf event)).1)
  writer : outcome.2.1.writer =
    (stage.writer.append files (Destination.ofEvent event) (stage.bodyOf event)).2.1
  producer : outcome.2.1.producer =
    (route stage.name stage.producer stage.sendTimeout (stage.book.find? event)
      (stage.bodyOf event)).2
  book : outcome.2.1.book = stage.book
  settings : stage.SameSettings outcome.2.1
  files : outcome.2.2 =
    (stage.writer.append files (Destination.ofEvent event) (stage.bodyOf event)).2.2

/-- What consuming or refusing a payload does: neither an append nor a send. -/
structure Passes (stage : Stage Store π) (files : FileTree)
    (outcome : Except EventError Report × Stage Store π × FileTree) : Prop where
  writer : outcome.2.1.writer = stage.writer
  producer : outcome.2.1.producer = stage.producer
  settings : stage.SameSettings outcome.2.1
  files : outcome.2.2 = files

/-- Masking keeps the masker of a stage that has one. -/
theorem isSome_maskWith (masker : Option Masker) (event : Json) :
    (maskWith masker event).2.2.isSome = masker.isSome := by
  cases masker with
  | none => rfl
  | some masker =>
    unfold maskWith
    dsimp only
    split <;> rfl

/-- An event is parsed from its payload and is an object. -/
theorem eventOf_eq_ok_iff {payload : Bytes} {event : Json} :
    eventOf payload = .ok event ↔ Json.parse payload = .ok event ∧ event.isObject = true := by
  unfold eventOf
  cases Json.parse payload with
  | error cause => simp
  | ok value =>
    dsimp only
    split
    · rename_i object
      rw [Except.ok.injEq, Except.ok.injEq]
      constructor
      · rintro rfl
        exact ⟨rfl, object⟩
      · exact fun same => same.1
    · rename_i noObject
      simp only [reduceCtorEq, Except.ok.injEq, false_iff, not_and]
      rintro rfl
      exact noObject

/-- A payload that is no event moves two counters and nothing else. -/
theorem invoke_of_refused (stage : Stage Store π) (files : FileTree) {payload : Bytes}
    {problem : EventError} (refused : eventOf payload = .error problem) :
    stage.invoke files payload =
      (.error problem,
        { stage with
          counters :=
            { stage.counters with
              received := stage.counters.received + 1
              parseErrors := stage.counters.parseErrors + 1 } },
        files) := by
  rw [invoke, refused]
  rfl

/-- A control signal moves two counters and reloads the rules. -/
theorem invoke_of_control (stage : Stage Store π) (files : FileTree) {payload : Bytes}
    {event : Json} (arrives : eventOf payload = .ok event)
    (control : stage.isControl event = true) :
    stage.invoke files payload =
      (.ok (.control stage.controlCode (stage.book.reload files).2.generation),
        { stage with
          book := (stage.book.reload files).2
          counters :=
            { stage.counters with
              received := stage.counters.received + 1
              controlSignals := stage.counters.controlSignals + 1 } },
        files) := by
  have handled : stage.receive.handle files event = (true, (stage.receive.reload files).2) :=
    if_pos control
  rw [invoke, arrives]
  dsimp only
  rw [handled]
  rfl

/-- Any other event is masked, written and routed, and each of these is counted. -/
theorem invoke_of_ordinary (stage : Stage Store π) (files : FileTree) {payload : Bytes}
    {event : Json} (arrives : eventOf payload = .ok event)
    (ordinary : stage.isControl event = false) :
    stage.invoke files payload =
      (.ok (.processed (Destination.ofEvent event) (maskWith stage.masker event).2.1
          (stage.writeOf files event).1 (stage.routeOf event).1),
        { stage with
          writer := (stage.writeOf files event).2.1
          producer := (stage.routeOf event).2
          masker := (maskWith stage.masker event).2.2
          counters :=
            (StageCounters.countWrite
              { stage.counters with
                received := stage.counters.received + 1
                masked :=
                  stage.counters.masked + if (maskWith stage.masker event).2.1 then 1 else 0 }
              (stage.writeOf files event).1).countRoute (stage.routeOf event).1 },
        (stage.writeOf files event).2.2) := by
  have unhandled : stage.receive.handle files event = (false, stage.receive) :=
    if_neg (by simpa [receive, isControl] using ordinary)
  rw [invoke, arrives]
  dsimp only
  rw [unhandled]
  rfl

/-- A payload that is no event is refused. -/
theorem passes_of_refused (stage : Stage Store π) (files : FileTree) {payload : Bytes}
    {problem : EventError} (refused : eventOf payload = .error problem) :
    (stage.invoke files payload).1 = .error problem ∧
      (stage.invoke files payload).2.1.book = stage.book ∧
      stage.Passes files (stage.invoke files payload) := by
  rw [invoke_of_refused stage files refused]
  exact ⟨rfl, rfl, rfl, rfl, ⟨rfl, rfl, rfl, rfl⟩, rfl⟩

/-- A control signal reloads the rules. -/
theorem passes_of_control (stage : Stage Store π) (files : FileTree) {payload : Bytes}
    {event : Json} (arrives : eventOf payload = .ok event)
    (control : stage.isControl event = true) :
    (stage.invoke files payload).2.1.book = (stage.book.reload files).2 ∧
      stage.Passes files (stage.invoke files payload) := by
  rw [invoke_of_control stage files arrives control]
  exact ⟨rfl, rfl, rfl, ⟨rfl, rfl, rfl, rfl⟩, rfl⟩

/-- A control signal is reported with the generation of the rules after it. -/
theorem report_of_control (stage : Stage Store π) (files : FileTree) {payload : Bytes}
    {event : Json} (arrives : eventOf payload = .ok event)
    (control : stage.isControl event = true) :
    (stage.invoke files payload).1 =
      .ok (.control stage.controlCode (stage.book.reload files).2.generation) := by
  rw [invoke_of_control stage files arrives control]

/-- Any other event is processed. -/
theorem processes_of_ordinary (stage : Stage Store π) (files : FileTree) {payload : Bytes}
    {event : Json} (arrives : eventOf payload = .ok event)
    (ordinary : stage.isControl event = false) :
    stage.Processes files event (stage.invoke files payload) := by
  rw [invoke_of_ordinary stage files arrives ordinary]
  exact ⟨rfl, rfl, rfl, rfl, ⟨rfl, rfl, rfl, isSome_maskWith _ _⟩, rfl⟩

/-! ## Routes -/

/-- The stage that a rule sends the events of a stage to, if its chain goes on from there. -/
def nextStage? (rule : Option Rule) (current : String) : Option String :=
  (rule.bind Rule.chain).bind fun chain =>
    match chain.successor current with
    | .next stage => some stage
    | .last => none
    | .missing => none

/-- A plan leads to the next stage exactly where there is one. -/
theorem plan_eq_some_iff {rule : Option Rule} {current : String} {target : Target} :
    plan rule current = .ok (some target) ↔
      ∃ next, nextStage? rule current = some next ∧ target = .ofStage next := by
  unfold plan nextStage?
  cases rule.bind Rule.chain with
  | none => simp
  | some chain =>
    rw [Option.bind_some]
    dsimp only
    cases chain.successor current with
    | next stage => simp [eq_comm]
    | last => simp
    | missing => simp

/-- A route sends one message where the chain goes on, and nothing otherwise. -/
theorem route_snd (current : String) (producer : Option π) (limit : Duration) (rule : Option Rule)
    (body : Bytes) :
    (route current producer limit rule body).2 =
      match nextStage? rule current with
      | some next =>
        (Producer.sendThrough producer (Target.ofStage next).topic messageKey body limit).2
      | none => producer := by
  have nowhere : (∀ target, plan rule current ≠ .ok (some target)) →
      nextStage? rule current = none := by
    intro noPlan
    rw [Option.eq_none_iff_forall_ne_some]
    exact fun next found => noPlan _ (plan_eq_some_iff.mpr ⟨next, found, rfl⟩)
  unfold route
  cases planned : plan rule current with
  | error problem => rw [nowhere (by simp [planned])]
  | ok goal =>
    cases goal with
    | none => rw [nowhere (by simp [planned])]
    | some target =>
      obtain ⟨next, found, rfl⟩ := plan_eq_some_iff.mp planned
      rw [found]
      dsimp only
      split <;> rename_i sent <;> rw [sent]

/-- At the end of a chain the event stays. -/
theorem route_fst_of_last {current : String} {rule : Rule} {chain : Chain}
    (chained : rule.chain = some chain) (ends : chain.successor current = .last)
    (producer : Option π) (limit : Duration) (body : Bytes) :
    (route current producer limit (some rule) body).1 = .terminal rule.source := by
  have planned : plan (some rule) current = .ok none := by
    simp [plan, chained, ends]
  rw [route, planned]
  rfl

/-- Before the end of a chain the event is forwarded where the message is accepted. -/
theorem route_fst_of_next {current next : String} {rule : Rule} {chain : Chain}
    (chained : rule.chain = some chain) (goes : chain.successor current = .next next)
    {producer : Option π} {limit : Duration} {body : Bytes}
    (accepted :
      (Producer.sendThrough producer (Target.ofStage next).topic messageKey body limit).1 = .ok ()) :
    (route current producer limit (some rule) body).1 =
      .forwarded rule.source (.ofStage next) := by
  have planned : plan (some rule) current = .ok (some (.ofStage next)) := by
    simp [plan, chained, goes]
  rw [route, planned]
  dsimp only
  split
  · rfl
  · rename_i problem _ sent
    rw [sent] at accepted
    simp at accepted

/-! ## A stage in memory -/

/-- An order of a project. -/
def order : Json :=
  .object [("amount", .number (.integer ⟨12, by decide, by decide⟩)), ("project_id", .text "p1"),
    ("type", .text "order")]

/-- The rule for the orders of a project. -/
def orderRule : Rule :=
  ((Rule.named "orders").withIdentity .project "p1").withChain ⟨["bronze", "silver"]⟩

/-- A stage in memory with that rule. -/
def orderStage (name : String) : Stage MemoryStore MemoryProducer :=
  ofParts name "reload" ⟨.memory [orderRule], .ofRules [orderRule], 1⟩ (.ofStore .empty)
    (some .empty)

/-- An order is read back from its bytes. -/
theorem eventOf_order : eventOf order.bytes = .ok order := by
  have readable : order.Readable := Json.readable_of_integers (by decide)
  exact eventOf_eq_ok_iff.mpr ⟨Json.parse_bytes readable (by decide), rfl⟩

/-- An order claims the rule for orders before all others. -/
theorem find?_orderRule :
    ([orderRule].find? fun rule => rule.claims order) = some orderRule := by
  decide

end EventRelay.Stage
