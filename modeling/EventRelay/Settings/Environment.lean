import EventRelay.Port
import EventRelay.Settings.Document
import EventRelay.Settings.Validation

/-!
# Settings from the environment

Six variables of the environment override settings. A blank variable counts as unset; any other one
is taken exactly as it is, except that the port is trimmed and read as a number.
-/

namespace EventRelay.Settings

/-- The variable for the root prefix of tables. -/
def rootVariable : String :=
  "RTDL_STORAGE_ROOT"

/-- The variable for the rule directory. -/
def directoryVariable : String :=
  "RTDL_CONFIG_DIR"

/-- The variable for the messaging endpoint. -/
def endpointVariable : String :=
  "KAFKA_URL"

/-- The variable for the ingest topic. -/
def topicVariable : String :=
  "KAFKA_TOPIC"

/-- The variable for the cluster host. -/
def hostVariable : String :=
  "SPARK_MASTER_HOST"

/-- The variable for the cluster port. -/
def portVariable : String :=
  "SPARK_MASTER_PORT"

/-- All variables that override settings. -/
def variableNames : List String :=
  [rootVariable, directoryVariable, endpointVariable, topicVariable, hostVariable, portVariable]

/-- The variables of an environment that are set. -/
abbrev Environment := String → Option String

/-- The value of a variable that is set and not blank. -/
def Environment.value? (environment : Environment) (name : String) : Option String :=
  match environment name with
  | none => none
  | some value => if Text.isBlankText value then none else some value

/-- The cluster port, overridden if the environment says so. -/
def overridePort (environment : Environment) (port : Nat) : Except SettingsError Nat :=
  match environment.value? portVariable with
  | none => .ok port
  | some text =>
    match Port.ofText? (Text.trim text) with
    | some port => .ok port
    | none => .error (.environment portVariable text "not a port number")

/-- The settings with the overrides of an environment, before they are checked again. -/
def withOverrides (settings : Settings) (environment : Environment) :
    Except SettingsError Settings := do
  let clusterPort ← overridePort environment settings.storage.clusterPort
  pure
    { settings with
      routing :=
        { settings.routing with
          directory := (environment.value? directoryVariable).getD settings.routing.directory }
      storage :=
        { settings.storage with
          rootPrefix := (environment.value? rootVariable).or settings.storage.rootPrefix
          clusterHost := (environment.value? hostVariable).getD settings.storage.clusterHost
          clusterPort }
      messaging :=
        { settings.messaging with
          endpoint := (environment.value? endpointVariable).or settings.messaging.endpoint }
      server :=
        { settings.server with
          ingestTopic := (environment.value? topicVariable).getD settings.server.ingestTopic } }

/-- The settings with the overrides of an environment, checked again. -/
def override (settings : Settings) (environment : Environment) :
    Except SettingsError Settings := do
  let overridden ← settings.withOverrides environment
  overridden.validate
  pure overridden

end EventRelay.Settings
