import EventRelay.Duration
import EventRelay.Settings.Logging
import EventRelay.Store.Writer
import EventRelay.Text.Blank

/-!
# Settings

Settings come in sections, and every one of them has a default.
-/

namespace EventRelay

/-- The form of log lines. -/
inductive LogFormat
  | console
  | json
  deriving DecidableEq, Repr

/-- Where tables are kept. -/
inductive StorageKind
  | disk
  | memory
  deriving DecidableEq, Repr

/-- How messages are sent. -/
inductive MessagingKind
  | tcp
  | memory
  deriving DecidableEq, Repr

/-- What is logged and in which form. -/
structure LogSettings where
  level : LogLevel := .info
  format : LogFormat := .console
  deriving DecidableEq, Repr

/-- Which stage this is. -/
structure StageSettings where
  name : String := "deltawriter"
  maskPersonal : Bool := false
  deriving DecidableEq, Repr

/-- Where rules come from and what reloads them. -/
structure RoutingSettings where
  directory : String := "storage/configs"
  controlCode : String := "rtdl_205"
  deriving DecidableEq, Repr

/-- How tables are written. -/
structure StorageSettings where
  kind : StorageKind := .disk
  path : String := "data"
  rootPrefix : Option String := none
  clusterHost : String := "host.docker.internal"
  clusterPort : Nat := 7077
  writeTimeout : Duration := .ofSeconds 10
  verifyWrites : Bool := false
  deriving DecidableEq, Repr

/-- How messages are sent. -/
structure MessagingSettings where
  kind : MessagingKind := .tcp
  endpoint : Option String := none
  sendTimeout : Duration := .ofSeconds 10
  connectTimeout : Duration := .ofSeconds 5
  deriving DecidableEq, Repr

/-- How the stage is reached. -/
structure ServerSettings where
  host : String := "0.0.0.0"
  port : Nat := 8083
  ingestTopic : String := "ingress"
  maxPayload : Nat := 1048576
  deriving DecidableEq, Repr

/-- All settings. -/
structure Settings where
  log : LogSettings := {}
  stage : StageSettings := {}
  routing : RoutingSettings := {}
  storage : StorageSettings := {}
  messaging : MessagingSettings := {}
  server : ServerSettings := {}
  deriving DecidableEq, Repr

namespace StorageSettings

/-- The root prefix without the slashes at its ends, unless that leaves nothing. -/
def root (storage : StorageSettings) : Option String :=
  storage.rootPrefix.bind TableWriter.trimRoot

/-- The address of the storage cluster. -/
def clusterAddress (storage : StorageSettings) : String :=
  "spark://" ++ storage.clusterHost ++ ":" ++ Decimal.text storage.clusterPort

end StorageSettings

namespace MessagingSettings

/-- The trimmed endpoint, unless it is blank. -/
def endpoint? (messaging : MessagingSettings) : Option String :=
  messaging.endpoint.bind fun endpoint =>
    let trimmed := Text.trim endpoint
    if trimmed.isEmpty then none else some trimmed

end MessagingSettings

namespace ServerSettings

/-- The address that the stage is reached at. -/
def bindAddress (server : ServerSettings) : String :=
  server.host ++ ":" ++ Decimal.text server.port

end ServerSettings

end EventRelay
