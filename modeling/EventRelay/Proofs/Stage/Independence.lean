import EventRelay.Proofs.Stage.Invocation

/-!
# Writing and forwarding do not interfere

An invocation writes an event and forwards it. What it forwards, and what it reports apart from the
write, is determined without the store; what it writes, and what it reports apart from the route, is
determined without the producer. Stages that are alike in the parts that one effect depends on stay
alike in them, so neither effect ever learns what has become of the other.
-/

namespace EventRelay

open Text (Bytes)

namespace Report

/-- What a report says, one of the two effects left out. -/
inductive View (Outcome : Type)
  | control (code : String) (generation : Nat)
  | processed (destination : Destination) (masked : Bool) (outcome : Outcome)

/-- What a report says apart from the write. -/
def routing : Report → View RouteOutcome
  | .control code generation => .control code generation
  | .processed destination masked _ route => .processed destination masked route

/-- What a report says apart from the route. -/
def writing : Report → View (Except WriteError Receipt)
  | .control code generation => .control code generation
  | .processed destination masked write _ => .processed destination masked write

end Report

namespace Stage

variable {Store τ π ρ : Type}

/-- Two stages that route alike. They may differ in what they write through, be it of another kind,
and in what they have counted. -/
structure RoutesAlike (first : Stage Store π) (second : Stage τ π) : Prop where
  name : second.name = first.name
  controlCode : second.controlCode = first.controlCode
  book : second.book = first.book
  producer : second.producer = first.producer
  sendTimeout : second.sendTimeout = first.sendTimeout
  masker : second.masker = first.masker

/-- Two stages that write alike. They may differ in what they forward through, be it of another kind
or missing, and in what they have counted. -/
structure WritesAlike (first : Stage Store π) (second : Stage Store ρ) : Prop where
  controlCode : second.controlCode = first.controlCode
  book : second.book = first.book
  writer : second.writer = first.writer
  masker : second.masker = first.masker

theorem isControl_eq {first : Stage Store π} {second : Stage τ ρ}
    (same : second.controlCode = first.controlCode) (event : Json) :
    second.isControl event = first.isControl event := by
  rw [isControl, isControl, same]

theorem bodyOf_eq {first : Stage Store π} {second : Stage τ ρ}
    (same : second.masker = first.masker) (event : Json) :
    second.bodyOf event = first.bodyOf event := by
  rw [bodyOf, bodyOf, same]

section OneInvocation

variable [TableStore Store] [TableStore τ] [Producer π] [Producer ρ]

/-- Stages that route alike report alike apart from the write and go on routing alike, whatever
becomes of the write. -/
theorem RoutesAlike.invoke {first : Stage Store π} {second : Stage τ π}
    (alike : first.RoutesAlike second) {files otherFiles : FileTree}
    (rules : first.book.source.load otherFiles = first.book.source.load files)
    (payload : Bytes) :
    (second.invoke otherFiles payload).1.map Report.routing =
        (first.invoke files payload).1.map Report.routing ∧
      (first.invoke files payload).2.1.RoutesAlike (second.invoke otherFiles payload).2.1 := by
  cases arrives : eventOf payload with
  | error problem =>
    rw [invoke_of_refused first files arrives, invoke_of_refused second otherFiles arrives]
    exact ⟨rfl, alike.name, alike.controlCode, alike.book, alike.producer, alike.sendTimeout,
      alike.masker⟩
  | ok event =>
    have same := isControl_eq alike.controlCode event
    cases control : first.isControl event with
    | true =>
      have reloaded : second.book.reload otherFiles = first.book.reload files := by
        rw [RuleBook.reload, RuleBook.reload, alike.book, rules]
      rw [invoke_of_control first files arrives control,
        invoke_of_control second otherFiles arrives (same.trans control), reloaded,
        alike.controlCode]
      exact ⟨rfl, alike.name, rfl, rfl, alike.producer, alike.sendTimeout, alike.masker⟩
    | false =>
      have routed : second.routeOf event = first.routeOf event := by
        rw [routeOf, routeOf, alike.name, alike.producer, alike.sendTimeout, alike.book,
          bodyOf_eq alike.masker]
      rw [invoke_of_ordinary first files arrives control,
        invoke_of_ordinary second otherFiles arrives (same.trans control), routed, alike.masker]
      exact ⟨rfl, alike.name, alike.controlCode, alike.book, rfl, alike.sendTimeout, rfl⟩

/-- Stages that write alike report alike apart from the route, leave the same files and go on
writing alike, whatever becomes of the route. -/
theorem WritesAlike.invoke {first : Stage Store π} {second : Stage Store ρ}
    (alike : first.WritesAlike second) (files : FileTree) (payload : Bytes) :
    (second.invoke files payload).1.map Report.writing =
        (first.invoke files payload).1.map Report.writing ∧
      (first.invoke files payload).2.1.WritesAlike (second.invoke files payload).2.1 ∧
      (second.invoke files payload).2.2 = (first.invoke files payload).2.2 := by
  cases arrives : eventOf payload with
  | error problem =>
    rw [invoke_of_refused first files arrives, invoke_of_refused second files arrives]
    exact ⟨rfl, ⟨alike.controlCode, alike.book, alike.writer, alike.masker⟩, rfl⟩
  | ok event =>
    have same := isControl_eq alike.controlCode event
    cases control : first.isControl event with
    | true =>
      rw [invoke_of_control first files arrives control,
        invoke_of_control second files arrives (same.trans control), alike.book,
        alike.controlCode]
      exact ⟨rfl, ⟨rfl, rfl, alike.writer, alike.masker⟩, rfl⟩
    | false =>
      have written : second.writeOf files event = first.writeOf files event := by
        rw [writeOf, writeOf, alike.writer, bodyOf_eq alike.masker]
      rw [invoke_of_ordinary first files arrives control,
        invoke_of_ordinary second files arrives (same.trans control), written, alike.masker]
      exact ⟨rfl, ⟨alike.controlCode, alike.book, rfl, rfl⟩, rfl⟩

/-- Whatever a stage writes through, an invocation ends in the same error or the same report apart
from the write, and the producer is left in the same state; whatever it forwards through, if
anything, it ends in the same error or the same report apart from the route, and the writer and the
files are left in the same state. The files that other stores work on may differ in all but the
rules. -/
theorem effects_independent (stage : Stage Store π) (files : FileTree) (payload : Bytes) :
    (∀ (writer : TableWriter τ) (otherFiles : FileTree),
      stage.book.source.load otherFiles = stage.book.source.load files →
        (Stage.invoke { stage with writer } otherFiles payload).1.map Report.routing =
            (stage.invoke files payload).1.map Report.routing ∧
          (Stage.invoke { stage with writer } otherFiles payload).2.1.producer =
            (stage.invoke files payload).2.1.producer) ∧
    (∀ producer : Option ρ,
      (Stage.invoke { stage with producer } files payload).1.map Report.writing =
          (stage.invoke files payload).1.map Report.writing ∧
        (Stage.invoke { stage with producer } files payload).2.1.writer =
          (stage.invoke files payload).2.1.writer ∧
        (Stage.invoke { stage with producer } files payload).2.2 =
          (stage.invoke files payload).2.2) := by
  constructor
  · intro writer otherFiles rules
    have alike : stage.RoutesAlike { stage with writer } := ⟨rfl, rfl, rfl, rfl, rfl, rfl⟩
    obtain ⟨reports, after⟩ := alike.invoke rules payload
    exact ⟨reports, after.producer⟩
  · intro producer
    have alike : stage.WritesAlike { stage with producer } := ⟨rfl, rfl, rfl, rfl⟩
    obtain ⟨reports, after, filesAfter⟩ := alike.invoke files payload
    exact ⟨reports, after.writer, filesAfter⟩

end OneInvocation

/-- A writer over a store that is failing. -/
def failingWriter : TableWriter MemoryStore :=
  .ofStore { MemoryStore.empty with failing := true }

/-- An order is forwarded where it cannot be written, and written where it cannot be forwarded. -/
theorem effects_independent_of_failure :
    let stage := orderStage "bronze"
    let silent : Stage MemoryStore MemoryProducer := { stage with producer := none }
    let elsewhere : FileTree := FileTree.empty.add ["elsewhere"] .directory
    stage.book.source.load elsewhere = stage.book.source.load .empty ∧
      (Stage.invoke { stage with writer := failingWriter } elsewhere order.bytes).1.map
          Report.routing =
        .ok (.processed ⟨"p1", "order"⟩ false (.forwarded "orders" (.ofStage "silver"))) ∧
      (silent.invoke .empty order.bytes).1.map Report.writing =
        .ok (.processed ⟨"p1", "order"⟩ false
          (.ok ⟨"p1/order", 1, order.bytes.length, false⟩)) := by
  intro stage silent elsewhere
  have ordinary : stage.isControl order = false := by decide
  have invoked := congrArg Prod.fst (invoke_of_ordinary stage .empty eventOf_order ordinary)
  obtain ⟨routes, writes⟩ :=
    effects_independent (τ := MemoryStore) (ρ := MemoryProducer) stage .empty order.bytes
  refine ⟨rfl, ?_, ?_⟩
  · have claimed : stage.book.find? order = some orderRule :=
      (RuleIndex.find?_ofRules [orderRule] order).trans find?_orderRule
    have routed : (stage.routeOf order).1 = .forwarded "orders" (.ofStage "silver") := by
      rw [routeOf, claimed]
      rfl
    rw [(routes failingWriter elsewhere rfl).1, invoked, routed]
    rfl
  · rw [(writes none).1, invoked]
    rfl

/-! ## Payload after payload -/

section Runs

variable [TableStore Store] [TableStore τ] [Producer π] [Producer ρ]

/-- Takes payloads one after the other. -/
def invokeAll (stage : Stage Store π) (files : FileTree) :
    List Bytes → List (Except EventError Report) × Stage Store π × FileTree
  | [] => ([], stage, files)
  | payload :: rest =>
    let (outcome, after, filesAfter) := stage.invoke files payload
    let (outcomes, last, filesLast) := after.invokeAll filesAfter rest
    (outcome :: outcomes, last, filesLast)

/-- An invocation does not change where the rules come from. -/
theorem source_invoke (stage : Stage Store π) (files : FileTree) (payload : Bytes) :
    (stage.invoke files payload).2.1.book.source = stage.book.source := by
  cases arrives : eventOf payload with
  | error problem => rw [invoke_of_refused stage files arrives]
  | ok event =>
    cases control : stage.isControl event with
    | true =>
      rw [invoke_of_control stage files arrives control]
      dsimp only
      unfold RuleBook.reload RuleBook.publish
      split <;> rfl
    | false => rw [invoke_of_ordinary stage files arrives control]

/-- Whatever becomes of all writes, the payloads are forwarded alike, where the rules do not come
from files that the stores may have changed. -/
theorem RoutesAlike.invokeAll {first : Stage Store π} {second : Stage τ π}
    (alike : first.RoutesAlike second)
    (steady : ∀ files otherFiles,
      first.book.source.load otherFiles = first.book.source.load files)
    (payloads : List Bytes) (files otherFiles : FileTree) :
    (second.invokeAll otherFiles payloads).1.map (Except.map Report.routing) =
        (first.invokeAll files payloads).1.map (Except.map Report.routing) ∧
      (first.invokeAll files payloads).2.1.RoutesAlike
        (second.invokeAll otherFiles payloads).2.1 := by
  induction payloads generalizing first second files otherFiles with
  | nil => exact ⟨rfl, alike⟩
  | cons payload rest inductionHypothesis =>
    obtain ⟨outcome, after⟩ := alike.invoke (steady files otherFiles) payload
    obtain ⟨outcomes, last⟩ := inductionHypothesis after
      (by rw [source_invoke]; exact steady) (first.invoke files payload).2.2
      (second.invoke otherFiles payload).2.2
    exact ⟨congrArg₂ List.cons outcome outcomes, last⟩

/-- Whatever becomes of all routes, the payloads are written alike. -/
theorem WritesAlike.invokeAll {first : Stage Store π} {second : Stage Store ρ}
    (alike : first.WritesAlike second) (payloads : List Bytes) (files : FileTree) :
    (second.invokeAll files payloads).1.map (Except.map Report.writing) =
        (first.invokeAll files payloads).1.map (Except.map Report.writing) ∧
      (first.invokeAll files payloads).2.1.WritesAlike (second.invokeAll files payloads).2.1 ∧
      (second.invokeAll files payloads).2.2 = (first.invokeAll files payloads).2.2 := by
  induction payloads generalizing first second files with
  | nil => exact ⟨rfl, alike, rfl⟩
  | cons payload rest inductionHypothesis =>
    obtain ⟨outcome, after, filesAfter⟩ := alike.invoke files payload
    obtain ⟨outcomes, last, filesLast⟩ :=
      inductionHypothesis after (first.invoke files payload).2.2
    simp only [Stage.invokeAll, filesAfter]
    exact ⟨congrArg₂ List.cons outcome outcomes, last, filesLast⟩

end Runs

end Stage

end EventRelay
