import EventRelay.FileTree
import EventRelay.Settings.Basic

/-!
# Valid settings

Settings are checked section by section, and the first fault is reported.
-/

namespace EventRelay

/-- What is wrong with settings. -/
inductive SettingsError
  /-- The file cannot be read. -/
  | unreadable (path cause : String)
  /-- The text is no settings document. -/
  | malformed
  | missing (group field : String)
  | invalid (group field reason : String)
  /-- A variable of the environment has an unusable value. -/
  | environment (name value reason : String)
  deriving DecidableEq, Repr

namespace SettingsError

/-- The wording of an error. -/
def message : SettingsError → String
  | .unreadable path cause => "failed to read config file '" ++ path ++ "': " ++ cause
  | .malformed => "failed to parse config: TOML parse error"
  | .missing group field => group ++ " is missing required field '" ++ field ++ "'"
  | .invalid group field reason => group ++ " has invalid " ++ field ++ ": " ++ reason
  | .environment name value reason =>
    "environment variable " ++ name ++ " has invalid value '" ++ value ++ "': " ++ reason

end SettingsError

namespace Settings

/-- Refuses a blank text. -/
def requireText (group field value : String) : Except SettingsError Unit :=
  if Text.isBlankText value then .error (.missing group field) else .ok ()

/-- Refuses zero. -/
def requirePositive (group field : String) (value : Nat) : Except SettingsError Unit :=
  if value = 0 then .error (.invalid group field "must be greater than zero") else .ok ()

/-- Refuses a stage name that can be no part of a chain. -/
def checkStage (stage : StageSettings) : Except SettingsError Unit := do
  requireText "stage" "name" stage.name
  if ',' ∈ stage.name.toList ∨ Text.trim stage.name ≠ stage.name then
    throw (.invalid "stage" "name" "must not contain commas or surrounding whitespace")

/-- Refuses a blank control code and an empty rule directory. -/
def checkRouting (routing : RoutingSettings) : Except SettingsError Unit := do
  requireText "routing" "control_code" routing.controlCode
  if routing.directory.isEmpty then throw (.missing "routing" "config_dir")

/-- Refuses a time limit of zero and a blank cluster host. -/
def checkStorage (storage : StorageSettings) : Except SettingsError Unit := do
  requirePositive "storage" "write_timeout" storage.writeTimeout.nanoseconds
  requireText "storage" "cluster_host" storage.clusterHost

/-- Refuses time limits of zero. -/
def checkMessaging (messaging : MessagingSettings) : Except SettingsError Unit := do
  requirePositive "messaging" "send_timeout" messaging.sendTimeout.nanoseconds
  requirePositive "messaging" "connect_timeout" messaging.connectTimeout.nanoseconds

/-- Refuses a blank ingest topic and a payload limit of zero. -/
def checkServer (server : ServerSettings) : Except SettingsError Unit := do
  requireText "server" "ingest_topic" server.ingestTopic
  requirePositive "server" "max_payload_size" server.maxPayload

/-- Refuses settings with a fault. -/
def validate (settings : Settings) : Except SettingsError Unit := do
  checkStage settings.stage
  checkRouting settings.routing
  checkStorage settings.storage
  checkMessaging settings.messaging
  checkServer settings.server

end Settings

end EventRelay
