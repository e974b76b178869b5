import EventRelay.Json.Error
import EventRelay.Json.Basic
import EventRelay.Message.Producer
import EventRelay.Stage.Plan
import EventRelay.Store.Writer

/-!
# Reports and counters of a stage

The report of an invocation says what has become of one event. The counters sum that up over all
invocations.
-/

namespace EventRelay

/-- Why a payload is no event. -/
inductive EventError
  | malformed (cause : Json.SyntaxError)
  | notAnObject (kind : String)
  deriving DecidableEq

namespace EventError

/-- The wording of an error. -/
def message : EventError → String
  | .malformed cause => "event is not valid JSON: " ++ cause.message
  | .notAnObject kind => "event must be a JSON object, got " ++ kind

end EventError

/-- Why an event is not forwarded. -/
inductive RouteError
  | integrity (cause : IntegrityError)
  | forward (target : Target) (cause : SendError)
  deriving DecidableEq

namespace RouteError

/-- The word for the kind of an error. -/
def kind : RouteError → String
  | .integrity _ => "integrity"
  | .forward _ cause => cause.kind

/-- The wording of an error. -/
def message : RouteError → String
  | .integrity cause => cause.message
  | .forward _ cause => cause.message

/-- Where the event was to go, if that is known. -/
def target? : RouteError → Option Target
  | .integrity _ => none
  | .forward target _ => some target

end RouteError

/-- What has become of the route of an event. -/
inductive RouteOutcome
  /-- No rule claims the event. -/
  | unmatched
  /-- The event ends at this stage. -/
  | terminal (rule : String)
  | forwarded (rule : String) (target : Target)
  | failed (rule : String) (cause : RouteError)
  deriving DecidableEq

/-- The report of an invocation. -/
inductive Report
  /-- The event was a control signal, and the rules have been reloaded. -/
  | control (code : String) (generation : Nat)
  | processed (destination : Destination) (masked : Bool) (write : Except WriteError Receipt)
      (route : RouteOutcome)

/-- What has become of the events that a stage was invoked on. -/
structure StageCounters where
  received : Nat := 0
  parseErrors : Nat := 0
  controlSignals : Nat := 0
  masked : Nat := 0
  writesOk : Nat := 0
  writesFailed : Nat := 0
  forwardsOk : Nat := 0
  forwardsFailed : Nat := 0
  terminal : Nat := 0
  integrityFaults : Nat := 0
  deriving DecidableEq, Repr

namespace StageCounters

/-- Counts the outcome of a write. -/
def countWrite (counters : StageCounters) : Except WriteError Receipt → StageCounters
  | .ok _ => { counters with writesOk := counters.writesOk + 1 }
  | .error _ => { counters with writesFailed := counters.writesFailed + 1 }

/-- Counts the outcome of a route. -/
def countRoute (counters : StageCounters) : RouteOutcome → StageCounters
  | .unmatched => { counters with terminal := counters.terminal + 1 }
  | .terminal _ => { counters with terminal := counters.terminal + 1 }
  | .forwarded .. => { counters with forwardsOk := counters.forwardsOk + 1 }
  | .failed _ (.integrity _) => { counters with integrityFaults := counters.integrityFaults + 1 }
  | .failed _ (.forward ..) => { counters with forwardsFailed := counters.forwardsFailed + 1 }

end StageCounters

/-! ## Reports and counters as JSON -/

/-- Counters of a sink as an object. -/
def SinkCounters.json (counters : SinkCounters) : Json :=
  .object
    [("records_received", .ofNat counters.received), ("records_written", .ofNat counters.written),
      ("bytes_written", .ofNat counters.bytes), ("write_errors", .ofNat counters.errors),
      ("timeouts", .ofNat counters.timeouts)]

/-- Counters of a stage as an object. -/
def StageCounters.json (counters : StageCounters) : Json :=
  .object
    [("events_received", .ofNat counters.received), ("parse_errors", .ofNat counters.parseErrors),
      ("control_signals", .ofNat counters.controlSignals),
      ("events_masked", .ofNat counters.masked),
      ("writes_ok", .ofNat counters.writesOk), ("writes_failed", .ofNat counters.writesFailed),
      ("forwards_ok", .ofNat counters.forwardsOk),
      ("forwards_failed", .ofNat counters.forwardsFailed), ("terminal", .ofNat counters.terminal),
      ("integrity_faults", .ofNat counters.integrityFaults)]

/-- A destination as an object. -/
def Destination.json (destination : Destination) : Json :=
  .object
    [("namespace", .text destination.namespaceName), ("table", .text destination.table)]

/-- A target as an object. -/
def Target.json (target : Target) : Json :=
  .object [("stage", .text target.stage), ("topic", .text target.topic)]

/-- The outcome of a write as an object. -/
def writeJson : Except WriteError Receipt → Json
  | .ok receipt =>
    .object
      [("status", .text "committed"), ("path", .text receipt.path),
        ("version", .ofNat receipt.version), ("bytes", .ofNat receipt.bytes),
        ("verified", .boolean receipt.verified)]
  | .error problem =>
    .object
      [("status", .text "failed"), ("kind", .text problem.kind), ("error", .text problem.message)]

/-- The outcome of a route as an object. -/
def RouteOutcome.json : RouteOutcome → Json
  | .unmatched => .object [("status", .text "unmatched")]
  | .terminal rule => .object [("status", .text "terminal"), ("rule", .text rule)]
  | .forwarded rule target =>
    .object [("status", .text "forwarded"), ("rule", .text rule), ("target", target.json)]
  | .failed rule cause =>
    .object
      [("status", .text "failed"), ("rule", .text rule), ("kind", .text cause.kind),
        ("error", .text cause.message), ("target", (cause.target?.map Target.json).getD .null)]

/-- A report as an object. -/
def Report.json : Report → Json
  | .control code generation =>
    .object
      [("outcome", .text "control"), ("code", .text code), ("generation", .ofNat generation)]
  | .processed destination masked write route =>
    .object
      [("outcome", .text "processed"), ("destination", destination.json),
        ("masked", .boolean masked), ("write", writeJson write), ("route", route.json)]

end EventRelay
