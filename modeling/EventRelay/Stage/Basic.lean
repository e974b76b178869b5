import EventRelay.Json.Printer
import EventRelay.Masking.Masker
import EventRelay.Rule.Book
import EventRelay.Stage.Report

/-!
# Stages

A stage takes one event at a time. A control signal makes it reload its rules. Any other event is
masked if the stage masks, written to its table and forwarded to the next stage of its chain; a
write that fails does not keep the event from being forwarded. Table and rule are chosen by the
event as it came in.
-/

namespace EventRelay

open Text (Bytes)

/-- A stage over a table store and a producer. -/
structure Stage (Store π : Type) where
  name : String
  /-- The text that makes an event a control signal. -/
  controlCode : String
  book : RuleBook
  writer : TableWriter Store
  /-- What forwards go through, if there is anything. -/
  producer : Option π
  sendTimeout : Duration
  /-- The masker of a stage that masks. -/
  masker : Option Masker
  counters : StageCounters

namespace Stage

variable {Store π : Type}

/-- The time limit of a forward unless told otherwise. -/
def defaultSendTimeout : Duration :=
  .ofSeconds 10

/-- The key of every message. -/
def messageKey : String :=
  "message"

/-- A text with its ASCII letters in lower case. -/
def foldCase (text : String) : List Char :=
  text.toList.map Char.toLower

/-- The members that may make an event a control signal. -/
def controlFields : List String :=
  ["message_type", "type"]

/-- Whether an event is a control signal for a code: a control member is the code, the case of ASCII
letters aside. -/
def isControlFor (code : String) (event : Json) : Bool :=
  controlFields.any fun field =>
    (event.field? field).any fun value => foldCase value = foldCase code

/-- Whether an event is a control signal for a stage. -/
def isControl (stage : Stage Store π) (event : Json) : Bool :=
  isControlFor stage.controlCode event

/-- Loads the rules of a stage again. -/
def reload (stage : Stage Store π) (files : FileTree) :
    Except LoadError ReloadSummary × Stage Store π :=
  let (outcome, book) := stage.book.reload files
  (outcome, { stage with book })

/-- The stage whose rule source has other rules at hand, which the next load will find. -/
def supply (stage : Stage Store π) (rules : List Rule) : Stage Store π :=
  { stage with book := stage.book.supply rules }

/-- Consumes an event that is a control signal. -/
def handle (stage : Stage Store π) (files : FileTree) (event : Json) : Bool × Stage Store π :=
  if stage.isControl event then (true, (stage.reload files).2) else (false, stage)

/-- The event as it leaves a stage, and whether it has been masked. An event whose masked text is
no JSON stays as it was. -/
def maskWith (masker : Option Masker) (event : Json) : Json × Bool × Option Masker :=
  match masker with
  | none => (event, false, none)
  | some masker =>
    match masker.mask event with
    | (.ok (some masked), after) => (masked, true, some after)
    | (.ok none, after) => (event, false, some after)
    | (.error _, after) => (event, false, some after)

variable [TableStore Store] [Producer π]

/-- Forwards an event that a rule may claim, and says what has become of it. -/
def route (current : String) (producer : Option π) (limit : Duration) (rule : Option Rule)
    (body : Bytes) : RouteOutcome × Option π :=
  let source := (rule.map Rule.source).getD ""
  match plan rule current with
  | .error problem => (.failed source (.integrity problem), producer)
  | .ok none => (if rule.isSome then .terminal source else .unmatched, producer)
  | .ok (some target) =>
    match Producer.sendThrough producer target.topic messageKey body limit with
    | (.ok (), after) => (.forwarded source target, after)
    | (.error problem, after) => (.failed source (.forward target problem), after)

/-- Writes and forwards an event that is no control signal. -/
def process (stage : Stage Store π) (files : FileTree) (event : Json) :
    Report × Stage Store π × FileTree :=
  let destination := Destination.ofEvent event
  let rule := stage.book.find? event
  let (leaving, masked, masker) := maskWith stage.masker event
  let body := leaving.bytes
  let (write, writer, filesAfter) := stage.writer.append files destination body
  let (outcome, producer) := route stage.name stage.producer stage.sendTimeout rule body
  let counters :=
    { stage.counters with masked := stage.counters.masked + if masked then 1 else 0 }
  (.processed destination masked write outcome,
    { stage with
      writer
      producer
      masker
      counters := (counters.countWrite write).countRoute outcome },
    filesAfter)

/-- The event that a payload spells. -/
def eventOf (payload : Bytes) : Except EventError Json :=
  match Json.parse payload with
  | .error cause => .error (.malformed cause)
  | .ok event => if event.isObject then .ok event else .error (.notAnObject event.kind)

/-- The stage with one more event received. -/
def receive (stage : Stage Store π) : Stage Store π :=
  { stage with counters := { stage.counters with received := stage.counters.received + 1 } }

/-- Takes one payload. -/
def invoke (stage : Stage Store π) (files : FileTree) (payload : Bytes) :
    Except EventError Report × Stage Store π × FileTree :=
  let received := stage.receive
  match eventOf payload with
  | .error problem =>
    let counters := { received.counters with parseErrors := received.counters.parseErrors + 1 }
    (.error problem, { received with counters }, files)
  | .ok event =>
    match received.handle files event with
    | (true, handled) =>
      let counters :=
        { handled.counters with controlSignals := handled.counters.controlSignals + 1 }
      (.ok (.control handled.controlCode handled.book.generation), { handled with counters }, files)
    | (false, ordinary) =>
      let (report, after, filesAfter) := ordinary.process files event
      (.ok report, after, filesAfter)

/-- The diagnostic text of what a stage forwards through. -/
def describeForwarding (stage : Stage Store π) : String :=
  "Dispatcher \x7b stage: " ++ Text.quote stage.name ++ ", producer: " ++
    Text.quoteOption (stage.producer.map Producer.kind) ++ ", send_timeout: " ++
    stage.sendTimeout.text ++ " \x7d"

/-- The diagnostic text of a stage. -/
def describe (stage : Stage Store π) : String :=
  "StageFunction \x7b stage: " ++ Text.quote stage.name ++ ", control_code: " ++
    Text.quote stage.controlCode ++ ", writer: " ++ stage.writer.describe ++ ", masking: " ++
    (if stage.masker.isSome then "true" else "false") ++ " \x7d"

end Stage

end EventRelay
