import EventRelay.Proofs.Endpoint
import EventRelay.Proofs.Envelope
import EventRelay.Proofs.Settings.Validation

/-!
# Requests to reload are understood

The endpoint of one stage publishes a request to reload, and any stage may read it. The two agree on
nothing but the control code, which travels as a string of a written envelope. A code that settings
may have is not empty, so it counts as the type of the message wherever it is read, and the stage
that reads it reloads its rules once and does nothing else.
-/

namespace EventRelay

open Text (Bytes)

/-! ## Control codes -/

/-- The control code of valid settings is not blank, so it is not empty. -/
theorem Settings.controlCode_ne_empty {settings : Settings} (valid : settings.validate = .ok ()) :
    settings.routing.controlCode ≠ "" := by
  intro empty
  have filled := (validate_eq_ok_iff.mp valid).controlCode
  rw [empty] at filled
  exact absurd filled (by decide)

namespace Envelope

/-- A request to reload is read back with the code as its type, whatever characters the code has. -/
theorem exists_eventOf_control {code : String} (filled : code ≠ "") :
    ∃ event, Stage.eventOf (control code).bytes = .ok event ∧
      event.field? "message_type" = some code := by
  have room : (control code).payload.depth < Json.maxDepth :=
    show (Json.object []).depth < Json.maxDepth by decide
  have readable : (control code).json.Readable := by
    refine Json.readable_of_integers ?_
    rw [numbers_json]
    simp [control]
  refine ⟨(control code).json.normal, ?_, ?_⟩
  · rw [eventOf_bytes, if_pos room, readable.reread_eq]
  · refine Json.field?_eq_some_iff.mpr ⟨?_, filled⟩
    rw [member?_normal_json]
    rfl

end Envelope

namespace Stage

variable {Store π : Type}

/-- An event whose type is the code of a stage, the case of ASCII letters aside, is a control signal
for the stage. -/
theorem isControl_of_messageType {stage : Stage Store π} {event : Json} {code : String}
    (type : event.field? "message_type" = some code)
    (alike : foldCase stage.controlCode = foldCase code) : stage.isControl event = true := by
  simp [isControl, isControlFor, controlFields, type, alike]

end Stage

/-! ## Publishing and reading -/

/-- What is published for a request to reload, with success, is one message with the control code of
the stage, and the stage has not run. -/
theorem Endpoint.serve_refresh {Store : Type} [TableStore Store]
    (endpoint : Endpoint Store MemoryProducer) (files : FileTree) (body : Bytes)
    (accepted : (endpoint.serve files body .refresh).1.status = 200) :
    ∃ producer later, endpoint.stage.producer = some producer ∧
      later.sent = producer.sent ++ [⟨endpoint.ingestTopic, "message",
        (Envelope.control endpoint.stage.controlCode).bytes⟩] ∧
      (endpoint.serve files body .refresh).2 =
        ({ endpoint with stage := { endpoint.stage with producer := some later } }, files) := by
  obtain ⟨-, producer, later, present, sent, after⟩ | ⟨refused, -⟩ :=
    endpoint.publish_cases (Envelope.control endpoint.stage.controlCode).bytes
  · exact ⟨producer, later, present, sent, congrArg (·, files) after⟩
  · exact absurd (accepted.symm.trans refused) (by decide)

namespace Stage

variable {Store π : Type} [TableStore Store] [Producer π]

/-- A request to reload that is published for valid settings is understood by every stage with the
same control code, the case of ASCII letters aside: the stage reports a control signal, reloads its
rules once, and leaves tables, messages, masker and files alone. -/
theorem refresh_is_understood {settings : Settings} (valid : settings.validate = .ok ())
    {stage : Stage Store π}
    (alike : foldCase stage.controlCode = foldCase settings.routing.controlCode)
    (files : FileTree) :
    let request := (Envelope.control settings.routing.controlCode).bytes
    let outcome := stage.invoke files request
    (∀ (door : Endpoint Store MemoryProducer) (body : Bytes),
      door.stage.controlCode = settings.routing.controlCode →
      (door.serve files body .refresh).1.status = 200 →
        ∃ producer later, door.stage.producer = some producer ∧
          later.sent = producer.sent ++ [⟨door.ingestTopic, "message", request⟩] ∧
          (door.serve files body .refresh).2 =
            ({ door with stage := { door.stage with producer := some later } }, files)) ∧
    outcome =
      (.ok (.control stage.controlCode (stage.book.reload files).2.generation),
        { stage with
          book := (stage.book.reload files).2
          counters :=
            { stage.counters with
              received := stage.counters.received + 1
              controlSignals := stage.counters.controlSignals + 1 } },
        files) ∧
    (∀ report, stage.book.source.load files = .ok report →
      outcome.2.1.book.published = .ofRules report.rules ∧
        outcome.2.1.book.generation = stage.book.generation + 1) ∧
    ∀ problem, stage.book.source.load files = .error problem →
      outcome.2.1.book = stage.book := by
  intro request outcome
  obtain ⟨event, arrives, type⟩ :=
    Envelope.exists_eventOf_control (Settings.controlCode_ne_empty valid)
  have done : outcome = _ :=
    invoke_of_control stage files arrives (isControl_of_messageType type alike)
  refine ⟨fun door body configured accepted => ?_, done, fun report loaded => ?_,
    fun problem failed => ?_⟩
  · have published := door.serve_refresh files body accepted
    rwa [configured] at published
  · rw [done, RuleBook.reload, loaded]
    exact ⟨rfl, rfl⟩
  · rw [done, RuleBook.reload, failed]
    rfl

/-- Settings whose control code has to be escaped where it is written. -/
def escapedSettings : Settings :=
  { routing := { controlCode := "Reload \"now\"\\\n\x01\u00c9" } }

/-- A masking stage whose control code is spelled in other letter cases. -/
def escapedStage : Stage MemoryStore MemoryProducer :=
  (ofParts "bronze" "rELOAD \"NOW\"\\\n\x01\u00c9" ⟨.memory [orderRule], .ofRules [], 4⟩
    (.ofStore .empty) (some .empty)).withMasking true

/-- The stage takes up its rule at the request, in its fifth generation. -/
theorem refresh_is_understood_escaped :
    escapedSettings.validate = .ok () ∧
      foldCase escapedStage.controlCode = foldCase escapedSettings.routing.controlCode ∧
      ∃ after, escapedStage.invoke .empty
          (Envelope.control escapedSettings.routing.controlCode).bytes =
            (.ok (.control escapedStage.controlCode 5), after, .empty) ∧
        after.book.published = .ofRules [orderRule] ∧
        after.writer = escapedStage.writer ∧ after.producer = escapedStage.producer ∧
        after.masker = escapedStage.masker := by
  have valid : escapedSettings.validate = .ok () := rfl
  have alike : foldCase escapedStage.controlCode =
      foldCase escapedSettings.routing.controlCode := by decide
  obtain ⟨-, done, -, -⟩ := refresh_is_understood valid alike .empty
  have fifth : (escapedStage.book.reload .empty).2.generation = 5 := rfl
  rw [fifth] at done
  exact ⟨valid, alike, _, done, rfl, rfl, rfl, rfl⟩

end Stage

end EventRelay
