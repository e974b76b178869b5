import EventRelay.Duration.Words
import EventRelay.Port
import EventRelay.Settings.Validation
import EventRelay.Toml.Document

/-!
# Settings from a document

A section is a table, whose unknown entries are ignored, or an array of the values of its fields in
order. What is not given has its default. A point in time in place of a section gives nothing.
-/

namespace EventRelay

open Toml (Value)

namespace Settings

/-- The values that a document gives for the fields of a section. -/
structure Given where
  /-- The value of a field by its position and its name. -/
  get? : Nat → String → Option Value

/-- What a value gives for the fields of a section; none if it can be no section. -/
def given? : Value → Option Given
  | .table entries => some ⟨fun _ name => entries.lookup name⟩
  | .array items => some ⟨fun position _ => items[position]?⟩
  | .time _ => some ⟨fun _ _ => none⟩
  | _ => none

/-- A field of a section: what it gives where it is given, else its default. -/
def field {α : Type} (given : Given) (position : Nat) (name : String) (default : α)
    (read : Value → Option α) : Option α :=
  match given.get? position name with
  | none => some default
  | some value => read value

/-- A value that is a text. -/
def text? : Value → Option String
  | .text value => some value
  | _ => none

/-- A value that is true or false. -/
def flag? : Value → Option Bool
  | .boolean value => some value
  | _ => none

/-- A value that is a whole number below a limit. -/
def natural? (limit : Nat) : Value → Option Nat
  | .integer value => if 0 ≤ value ∧ value < limit then some value.toNat else none
  | _ => none

/-- A value that describes a duration. -/
def duration? : Value → Option Duration
  | .text value => Duration.parse? value
  | _ => none

/-- A value without content. -/
def isEmpty : Value → Bool
  | .table entries => entries.isEmpty
  | .array items => items.isEmpty
  | _ => false

/-- A value that names one of several choices, as a text or as the one entry of a table. -/
def choice? {α : Type} (choices : List (String × α)) : Value → Option α
  | .text name => choices.lookup name
  | .table [(name, value)] => if isEmpty value then choices.lookup name else none
  | _ => none

/-- The first number that a size cannot be. -/
def sizeLimit : Nat :=
  18446744073709551616

/-- The section on logs. -/
def log? (given : Given) : Option LogSettings := do
  let default : LogSettings := {}
  let level ← field given 0 "level" default.level
    (choice? (LogLevel.all.map fun level => (level.name, level)))
  let format ← field given 1 "format" default.format
    (choice? [("console", .console), ("json", .json)])
  pure { level, format }

/-- The section on the stage. -/
def stage? (given : Given) : Option StageSettings := do
  let default : StageSettings := {}
  let name ← field given 0 "name" default.name text?
  let maskPersonal ← field given 1 "mask_pii" default.maskPersonal flag?
  pure { name, maskPersonal }

/-- The section on rules. -/
def routing? (given : Given) : Option RoutingSettings := do
  let default : RoutingSettings := {}
  let directory ← field given 0 "config_dir" default.directory text?
  let controlCode ← field given 1 "control_code" default.controlCode text?
  pure { directory, controlCode }

/-- The section on tables. -/
def storage? (given : Given) : Option StorageSettings := do
  let default : StorageSettings := {}
  let kind ← field given 0 "kind" default.kind (choice? [("disk", .disk), ("memory", .memory)])
  let path ← field given 1 "path" default.path text?
  let rootPrefix ← field given 2 "root_prefix" default.rootPrefix fun value =>
    (text? value).map some
  let clusterHost ← field given 3 "cluster_host" default.clusterHost text?
  let clusterPort ← field given 4 "cluster_port" default.clusterPort (natural? Port.limit)
  let writeTimeout ← field given 5 "write_timeout" default.writeTimeout duration?
  let verifyWrites ← field given 6 "verify_writes" default.verifyWrites flag?
  pure { kind, path, rootPrefix, clusterHost, clusterPort, writeTimeout, verifyWrites }

/-- The section on messages. -/
def messaging? (given : Given) : Option MessagingSettings := do
  let default : MessagingSettings := {}
  let kind ← field given 0 "kind" default.kind (choice? [("tcp", .tcp), ("memory", .memory)])
  let endpoint ← field given 1 "endpoint" default.endpoint fun value => (text? value).map some
  let sendTimeout ← field given 2 "send_timeout" default.sendTimeout duration?
  let connectTimeout ← field given 3 "connect_timeout" default.connectTimeout duration?
  pure { kind, endpoint, sendTimeout, connectTimeout }

/-- The section on the server. -/
def server? (given : Given) : Option ServerSettings := do
  let default : ServerSettings := {}
  let host ← field given 0 "host" default.host text?
  let port ← field given 1 "port" default.port (natural? Port.limit)
  let ingestTopic ← field given 2 "ingest_topic" default.ingestTopic text?
  let maxPayload ← field given 3 "max_payload_size" default.maxPayload (natural? sizeLimit)
  pure { host, port, ingestTopic, maxPayload }

/-- A section of a document. -/
def group {α : Type} (entries : List (String × Value)) (name : String) (default : α)
    (read : Given → Option α) : Option α :=
  match entries.lookup name with
  | none => some default
  | some value => (given? value).bind read

/-- The settings that the entries of a document give. -/
def ofEntries? (entries : List (String × Value)) : Option Settings := do
  let log ← group entries "log" {} log?
  let stage ← group entries "stage" {} stage?
  let routing ← group entries "routing" {} routing?
  let storage ← group entries "storage" {} storage?
  let messaging ← group entries "messaging" {} messaging?
  let server ← group entries "server" {} server?
  pure { log, stage, routing, storage, messaging, server }

/-- The valid settings that a text spells. -/
def parse (text : String) : Except SettingsError Settings := do
  match (Toml.parse text).bind ofEntries? with
  | none => throw .malformed
  | some settings =>
    settings.validate
    pure settings

end Settings

end EventRelay
