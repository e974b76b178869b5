import EventRelay.Text.Blank

/-!
# Log levels

The level of a stage applies to its own parts. Everything else is held one notch quieter, and is
never louder than warnings unless the stage itself gives debugging information.
-/

namespace EventRelay

/-- How much is logged. -/
inductive LogLevel
  | trace
  | debug
  | info
  | warn
  | error
  deriving DecidableEq, Repr

namespace LogLevel

/-- The name of a level. -/
def name : LogLevel → String
  | .trace => "trace"
  | .debug => "debug"
  | .info => "info"
  | .warn => "warn"
  | .error => "error"

/-- All levels, the one that logs most first. -/
def all : List LogLevel :=
  [.trace, .debug, .info, .warn, .error]

/-- The level of a name as it is written in settings. -/
def ofName? (name : String) : Option LogLevel :=
  all.find? fun level => level.name = name

/-- A text in the form in which levels are compared: trimmed, its ASCII letters in lower case. -/
def normalize (text : String) : String :=
  String.ofList ((Text.trim text).toList.map Char.toLower)

/-- The level that a text names; warnings have a second name. -/
def parse (text : String) : Except String LogLevel :=
  let name := normalize text
  if name = "warning" then .ok .warn
  else
    match ofName? name with
    | some level => .ok level
    | none => .error ("unknown log level '" ++ name ++ "'")

/-- The level for everything that is no part of the stage. -/
def dependencyLevel : LogLevel → LogLevel
  | .trace => .debug
  | .debug => .info
  | .info => .warn
  | .warn => .warn
  | .error => .error

/-- The parts of a stage that log under their own names. -/
def targets : List String :=
  ["rtdl", "rtdl_config", "rtdl_routing", "rtdl_sinks", "rtdl_transform", "rtdl_pipeline"]

/-- The filter of a level: the level for everything else, then the level of every part. -/
def directives (level : LogLevel) : String :=
  targets.foldl (fun text target => text ++ "," ++ target ++ "=" ++ level.name)
    level.dependencyLevel.name

end LogLevel

end EventRelay
