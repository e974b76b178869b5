import EventRelay.Proofs.Envelope
import EventRelay.Proofs.Stage.Invocation

/-!
# What a stage makes of a message from the front door

The front door puts every accepted message into an envelope, and a stage takes the envelope as its
event. Three fields of the message decide what the stage does: they alone are copied into the
header, and what the message holds otherwise lies one level too deep to be looked at. The envelope
costs one level, so of the accepted messages those that use all levels are refused by the stage.
-/

namespace EventRelay

open Text (Bytes)

/-! ## The fields that a stage sees -/

/-- The fields of a message that a stage sees through its envelope. -/
structure VisibleFields where
  writeKey : Option String
  stream : Option String
  messageType : Option String

/-- The fields of a message, each where it is a text other than the empty one. -/
def Json.visibleFields (message : Json) : VisibleFields :=
  ⟨message.field? "writeKey", message.field? "stream_id", message.field? "type"⟩

namespace VisibleFields

/-- The member of the envelope's event under a name: the message, or the header field that is
there. -/
def member? (fields : VisibleFields) (message : Json) (name : String) : Option Json :=
  if name = "payload" then some message
  else if name = "stream_alt_id" then fields.writeKey.map .text
  else if name = "stream_id" then
    if fields.writeKey.isSome then none else fields.stream.map .text
  else if name = "message_type" then fields.messageType.map .text
  else none

/-- Whether the fields make a control signal: the type is the code, the case of ASCII letters
aside. -/
def isControlFor (code : String) (fields : VisibleFields) : Bool :=
  fields.messageType.any fun value => Stage.foldCase value = Stage.foldCase code

/-- The destination that the fields name: the write key or else the stream, and the type. -/
def destination (fields : VisibleFields) : Destination :=
  { namespaceName := (fields.writeKey.or fields.stream).getD Destination.defaultNamespace
    table := fields.messageType.getD Destination.defaultTable }

/-- Whether a rule claims the fields: by the write key where there is one, and else by the
stream. -/
def claimedBy (fields : VisibleFields) (rule : Rule) : Bool :=
  match fields.writeKey with
  | some key => rule.streamAlias = some key
  | none => fields.stream.any fun value => rule.stream = some value

end VisibleFields

/-- An event that shows a stage the fields of a message and the message itself, and nothing else. -/
structure Shows (message event : Json) : Prop where
  object : event.isObject = true
  members : ∀ name, event.member? name = message.visibleFields.member? message name

namespace Shows

variable {message event : Json} (shows : Shows message event)
include shows

theorem field?_streamAlias : event.field? "stream_alt_id" = message.field? "writeKey" :=
  Json.field?_of_member? (shows.members "stream_alt_id") Json.ne_empty_of_field?

theorem field?_stream : event.field? "stream_id" =
    if (message.field? "writeKey").isSome then none else message.field? "stream_id" := by
  refine Json.field?_of_member? ?_ ?_
  · rw [shows.members]
    cases keyed : message.field? "writeKey" <;>
      simp [VisibleFields.member?, Json.visibleFields, keyed]
  · split
    · simp
    · exact Json.ne_empty_of_field?

theorem field?_messageType : event.field? "message_type" = message.field? "type" :=
  Json.field?_of_member? (shows.members "message_type") Json.ne_empty_of_field?

/-- No other member counts. -/
theorem field?_other {name : String}
    (other : name ∉ ["stream_alt_id", "stream_id", "message_type", "payload"]) :
    event.field? name = none := by
  have absent : event.member? name = none := by
    simp only [List.mem_cons, List.not_mem_nil, or_false, not_or] at other
    simp [shows.members, VisibleFields.member?, other]
  exact @Json.field?_of_member? event name none absent (by simp)

/-- The event is a control signal where the fields are. -/
theorem isControlFor_eq (code : String) :
    Stage.isControlFor code event = message.visibleFields.isControlFor code := by
  have type : event.field? "type" = none := shows.field?_other (by decide)
  simp [Stage.isControlFor, Stage.controlFields, VisibleFields.isControlFor,
    Json.visibleFields, shows.field?_messageType, type]

/-- The event is stored where the fields say. -/
theorem ofEvent_eq : Destination.ofEvent event = message.visibleFields.destination := by
  have project : event.field? "project_id" = none := shows.field?_other (by decide)
  have type : event.field? "type" = none := shows.field?_other (by decide)
  simp only [Destination.ofEvent, Destination.namespaceFields, Destination.tableFields,
    Identity.all, List.map_cons, List.map_nil, Identity.name, Json.firstField?,
    List.findSome?_cons, List.findSome?_nil, project, type, shows.field?_streamAlias,
    shows.field?_stream, shows.field?_messageType, VisibleFields.destination,
    Json.visibleFields]
  cases message.field? "writeKey" <;> cases message.field? "stream_id" <;>
    cases message.field? "type" <;> rfl

/-- A rule claims the event where it claims the fields. -/
theorem claims_eq (rule : Rule) :
    rule.claims event = message.visibleFields.claimedBy rule := by
  have project : event.field? "project_id" = none := shows.field?_other (by decide)
  simp only [Rule.claims, Identity.all, List.any_cons, List.any_nil, Rule.claimsThrough,
    Identity.of?, Identity.name, Rule.identity?, project, shows.field?_streamAlias,
    shows.field?_stream, VisibleFields.claimedBy, Json.visibleFields]
  cases message.field? "writeKey" with
  | none =>
    cases message.field? "stream_id" with
    | none => rfl
    | some value => exact Bool.or_false _
  | some key => exact Bool.or_false _

end Shows

/-! ## Envelopes and the stages that read them -/

/-- A message in normal form with integers only that leaves room for its envelope. -/
structure Json.Ingestible (message : Json) : Prop where
  object : message.isObject = true
  normal : message.Normal
  integers : ∀ number ∈ message.numbers, number.isInteger = true
  shallow : message.depth ≤ 126

namespace Envelope

/-- An object is put into an envelope. -/
theorem exists_wrap {message : Json} (object : message.isObject = true) :
    ∃ envelope, wrap message = .ok envelope ∧ envelope.payload = message ∧
      envelope.streamAlias = message.field? "writeKey" ∧
      envelope.stream =
        (if (message.field? "writeKey").isSome then none else message.field? "stream_id") ∧
      envelope.messageType = message.field? "type" :=
  ⟨_, if_pos object, rfl, rfl, rfl, rfl⟩

/-- A message that leaves room for its envelope is shown to the stage that reads the envelope. -/
theorem exists_shows {message : Json} (ingestible : message.Ingestible) :
    ∃ envelope event, wrap message = .ok envelope ∧
      Stage.eventOf envelope.bytes = .ok event ∧ Shows message event := by
  obtain ⟨envelope, wrapped, payload, streamAlias, stream, messageType⟩ :=
    exists_wrap ingestible.object
  have readable : envelope.json.Readable := by
    refine Json.readable_of_integers ?_
    rw [numbers_json, payload]
    exact ingestible.integers
  have room : envelope.payload.depth < Json.maxDepth := by
    rw [payload]
    exact Nat.lt_succ_of_le ingestible.shallow
  have normal : message.normal = message := ingestible.normal
  refine ⟨envelope, envelope.json.normal, wrapped, ?_, ?_, fun name => ?_⟩
  · rw [eventOf_bytes, if_pos room, readable.reread_eq]
  · rw [json, Json.normal_object]
    rfl
  · simp only [member?_normal_json, payload, streamAlias, stream, messageType, normal,
      VisibleFields.member?, Json.visibleFields]
    split_ifs <;> simp_all

/-- What an accepted body holds is put into the envelope as it is. -/
theorem payload_of_ofBytes {body : Bytes} {envelope : Envelope}
    (accepted : ofBytes body = .ok envelope) : Json.parse body = .ok envelope.payload := by
  unfold ofBytes at accepted
  split at accepted
  · simp at accepted
  · rename_i message parsed
    unfold wrap at accepted
    split at accepted
    · rw [parsed, ← Except.ok.inj accepted]
    · simp at accepted

/-- A body that holds an object is accepted. -/
theorem exists_ofBytes {body : Bytes} {message : Json} (parsed : Json.parse body = .ok message)
    (object : message.isObject = true) :
    ∃ envelope, ofBytes body = .ok envelope ∧ envelope.payload = message := by
  obtain ⟨envelope, wrapped, payload, -⟩ := exists_wrap object
  exact ⟨envelope, by rw [ofBytes, parsed]; exact wrapped, payload⟩

end Envelope

namespace Stage

variable {Store π : Type} [TableStore Store] [Producer π]

/-- What a stage does with a message that comes in through the front door depends on three fields of
it: whether it is a control signal on the type, its table on the write key or else the stream and on
the type, and its rule on the write key or else the stream. -/
theorem sees_visibleFields (stage : Stage Store π) (files : FileTree) {rules : List Rule}
    (published : stage.book.published = .ofRules rules) {message : Json}
    (ingestible : message.Ingestible) :
    ∃ envelope event, Envelope.wrap message = .ok envelope ∧
      eventOf envelope.bytes = .ok event ∧ event.isObject = true ∧
      (∀ name, event.member? name = message.visibleFields.member? message name) ∧
      ((∃ code generation,
          (stage.invoke files envelope.bytes).1 = .ok (.control code generation)) ↔
        message.visibleFields.isControlFor stage.controlCode = true) ∧
      (message.visibleFields.isControlFor stage.controlCode = false →
        stage.Processes files event (stage.invoke files envelope.bytes) ∧
          Destination.ofEvent event = message.visibleFields.destination ∧
          stage.book.find? event = rules.find? message.visibleFields.claimedBy) ∧
      ∀ other otherEnvelope otherEvent, other.Ingestible →
        other.visibleFields = message.visibleFields →
        Envelope.wrap other = .ok otherEnvelope →
        eventOf otherEnvelope.bytes = .ok otherEvent →
          stage.isControl otherEvent = stage.isControl event ∧
            Destination.ofEvent otherEvent = Destination.ofEvent event ∧
            stage.book.find? otherEvent = stage.book.find? event := by
  have found : ∀ {message event : Json}, Shows message event →
      stage.book.find? event = rules.find? message.visibleFields.claimedBy := by
    intro message event shows
    rw [RuleBook.find?, published, RuleIndex.find?_ofRules, funext shows.claims_eq]
  obtain ⟨envelope, event, wrapped, arrives, shows⟩ := Envelope.exists_shows ingestible
  refine ⟨envelope, event, wrapped, arrives, shows.object, shows.members, ?_, ?_, ?_⟩
  · rw [← shows.isControlFor_eq]
    constructor
    · rintro ⟨code, generation, consumed⟩
      rw [← Bool.not_eq_false]
      intro ordinary
      rw [(processes_of_ordinary stage files arrives ordinary).report] at consumed
      simp at consumed
    · exact fun control => ⟨_, _, report_of_control stage files arrives control⟩
  · rw [← shows.isControlFor_eq]
    exact fun ordinary =>
      ⟨processes_of_ordinary stage files arrives ordinary, shows.ofEvent_eq, found shows⟩
  · intro other otherEnvelope otherEvent otherIngestible alike otherWrapped otherArrives
    obtain ⟨_, _, sameWrapped, sameArrives, otherShows⟩ := Envelope.exists_shows otherIngestible
    obtain rfl := Except.ok.inj (otherWrapped.symm.trans sameWrapped)
    obtain rfl := Except.ok.inj (otherArrives.symm.trans sameArrives)
    refine ⟨?_, ?_, ?_⟩
    · rw [isControl, isControl, otherShows.isControlFor_eq, shows.isControlFor_eq, alike]
    · rw [otherShows.ofEvent_eq, shows.ofEvent_eq, alike]
    · rw [found otherShows, found shows, alike]

/-- A message whose own header fields would make it a control signal and an order of a project. -/
def disguised : Json :=
  .object [("message_type", .text "reload"), ("nested", .object [("type", .text "reload")]),
    ("project_id", .text "p1"), ("type", .text "page"), ("writeKey", .text "k1")]

/-- The stage sees the write key and the type of the message only. -/
theorem sees_disguised :
    (orderStage "bronze").book.published = .ofRules [orderRule] ∧ disguised.Ingestible ∧
      ∃ envelope event, Envelope.wrap disguised = .ok envelope ∧
        eventOf envelope.bytes = .ok event ∧
        (orderStage "bronze").Processes .empty event
          ((orderStage "bronze").invoke .empty envelope.bytes) ∧
        Destination.ofEvent event = ⟨"k1", "page"⟩ ∧
        (orderStage "bronze").book.find? event = none := by
  have published : (orderStage "bronze").book.published = .ofRules [orderRule] := rfl
  have ingestible : disguised.Ingestible := ⟨rfl, rfl, by decide, by decide⟩
  obtain ⟨envelope, event, wrapped, arrives, -, -, -, ordinary, -⟩ :=
    sees_visibleFields (orderStage "bronze") .empty published ingestible
  obtain ⟨processed, destination, rule⟩ := ordinary (by decide)
  exact ⟨published, ingestible, envelope, event, wrapped, arrives, processed,
    destination.trans (by decide), rule.trans (by decide)⟩

/-! ## Room for the envelope -/

/-- A stage reads the envelope of an accepted body exactly where the message leaves one level
unused. A message that uses all levels is accepted, and its envelope is refused as too deep. -/
theorem reads_envelope_iff (stage : Stage Store π) (files : FileTree) {body : Bytes}
    {envelope : Envelope} (accepted : Envelope.ofBytes body = .ok envelope) :
    envelope.payload.depth ≤ 127 ∧
      ((∃ report, (stage.invoke files envelope.bytes).1 = .ok report) ↔
        envelope.payload.depth ≤ 126) ∧
      (envelope.payload.depth = 127 →
        (stage.invoke files envelope.bytes).1 = .error (.malformed .tooDeep)) := by
  have parsed := Envelope.payload_of_ofBytes accepted
  have arrives := envelope.eventOf_bytes
  have tooDeep : ¬ envelope.payload.depth < Json.maxDepth →
      (stage.invoke files envelope.bytes).1 = .error (.malformed .tooDeep) := by
    intro full
    rw [if_neg full] at arrives
    exact (passes_of_refused stage files arrives).1
  refine ⟨(Json.normal_and_depth_le_of_parse parsed).2, ⟨?_, ?_⟩, ?_⟩
  · rintro ⟨report, answered⟩
    by_contra full
    rw [tooDeep (fun room => full (Nat.le_of_lt_succ room))] at answered
    simp at answered
  · intro room
    have fits : envelope.payload.depth < Json.maxDepth := Nat.lt_succ_of_le room
    rw [if_pos fits] at arrives
    cases control : stage.isControl envelope.json.reread.normal with
    | true => exact ⟨_, report_of_control stage files arrives control⟩
    | false => exact ⟨_, (processes_of_ordinary stage files arrives control).report⟩
  · exact fun full => tooDeep (by rw [full]; decide)

/-- An order leaves room for its envelope. -/
theorem reads_envelope_of_order :
    ∃ envelope, Envelope.ofBytes order.bytes = .ok envelope ∧
      ∃ report, ((orderStage "bronze").invoke .empty envelope.bytes).1 = .ok report := by
  have parsed := (eventOf_eq_ok_iff.mp eventOf_order).1
  obtain ⟨envelope, accepted, payload⟩ := Envelope.exists_ofBytes parsed rfl
  have reads := (reads_envelope_iff (orderStage "bronze") .empty accepted).2.1
  exact ⟨envelope, accepted, reads.mpr (by rw [payload]; decide)⟩

/-- Objects nested in one another, so many deep. -/
def nested : Nat → Json
  | 0 => .number (.integer ⟨1, by decide, by decide⟩)
  | levels + 1 => .object [("a", nested levels)]

/-- Nested objects are in normal form, hold an integer only, and are as deep as they are many. -/
theorem nested_plain (levels : Nat) :
    (nested levels).Normal ∧ (∀ number ∈ (nested levels).numbers, number.isInteger = true) ∧
      (nested levels).depth = levels := by
  induction levels with
  | zero => exact ⟨rfl, by decide, rfl⟩
  | succ levels inductionHypothesis =>
    obtain ⟨normal, integers, depth⟩ := inductionHypothesis
    have same : (nested levels).normal = nested levels := normal
    refine ⟨?_, ?_, ?_⟩
    · rw [Json.Normal, nested, Json.normal_object, List.map_singleton, same]
      rfl
    · rw [nested, Json.numbers_object, List.flatMap_singleton]
      exact integers
    · rw [nested, Json.depth, Json.depthOfMembers, Json.depthOfMembers, depth, Nat.max_zero]

/-- A body that uses all levels is accepted, and the stage does not read its envelope. -/
theorem envelope_of_nested_unread :
    ∃ envelope, Envelope.ofBytes (nested 127).bytes = .ok envelope ∧
      ((orderStage "bronze").invoke .empty envelope.bytes).1 = .error (.malformed .tooDeep) := by
  obtain ⟨normal, integers, depth⟩ := nested_plain 127
  have parsed : Json.parse (nested 127).bytes = .ok (nested 127) :=
    (Json.parse_bytes (Json.readable_of_integers integers) depth.le).trans (congrArg _ normal)
  obtain ⟨envelope, accepted, payload⟩ := Envelope.exists_ofBytes parsed rfl
  have full : ¬ 127 < Json.maxDepth := by decide
  have arrives := envelope.eventOf_bytes
  rw [payload, depth, if_neg full] at arrives
  exact ⟨envelope, accepted, (passes_of_refused (orderStage "bronze") .empty arrives).1⟩

end Stage

end EventRelay
