import EventRelay.CommandLine.Arguments
import EventRelay.Endpoint
import EventRelay.Rule.Book
import EventRelay.Settings.Environment
import EventRelay.Stage.Assembly

/-!
# Running a command

Both commands load the settings first: from the file that is named, which has to be there, else from
the first default file that is there, else from the defaults; the environment overrides them. The
check prints what it finds in the rules and fails if any record had to be skipped.
-/

namespace EventRelay.CommandLine

/-- A failure with the causes behind it, the nearest one first. -/
structure Failure where
  message : String
  causes : List String := []
  deriving DecidableEq, Repr

namespace Failure

/-- A text of several lines with a margin before every line but the first. -/
def withMargin (margin : String) (text : String) : String :=
  String.ofList (text.toList.flatMap fun c => if c = '\n' then '\n' :: margin.toList else [c])

/-- The lines of the causes; they are numbered where there are several. -/
def causeLines (causes : List String) : String :=
  match causes with
  | [cause] => "    " ++ withMargin "    " cause ++ "\n"
  | causes =>
    String.join (causes.zipIdx.map fun (cause, position) =>
      "    " ++ Decimal.text position ++ ": " ++ withMargin "       " cause ++ "\n")

/-- The text that a failure is reported with. -/
def text (failure : Failure) : String :=
  "Error: " ++ failure.message ++ "\n" ++
    (if failure.causes.isEmpty then "" else "\nCaused by:\n" ++ causeLines failure.causes)

/-- The failure behind which an error stands with its own causes. -/
def caused (message : String) (failure : Failure) : Failure :=
  ⟨message, failure.message :: failure.causes⟩

end Failure

/-- How a command ends. -/
inductive Outcome
  | exited (code : Nat) (output problem : String)
  /-- The arguments are refused. -/
  | misused
  /-- The stage is ready to be reached. -/
  | serving (endpoint : Endpoint ConfiguredStore ConfiguredProducer)

/-- The files that settings are looked for in. -/
def defaultPaths : List String :=
  ["configs/config.toml", "config.toml"]

/-- An error of settings as a failure. -/
def settingsFailure (problem : SettingsError) : Failure :=
  match problem with
  | .unreadable _ cause => ⟨problem.message, [cause]⟩
  | .malformed => ⟨problem.message, ["TOML parse error"]⟩
  | _ => ⟨problem.message, []⟩

/-- An error of a load as a failure. -/
def loadFailure (problem : LoadError) : Failure :=
  ⟨problem.message, [problem.cause]⟩

/-- The settings of a file. -/
def settingsOfFile (files : FileTree) (path : String) : Except SettingsError Settings :=
  match files.read (.ofText path) with
  | .error problem => .error (.unreadable path problem.message)
  | .ok content =>
    match Text.Utf8.decode? content with
    | none => .error (.unreadable path "stream did not contain valid UTF-8")
    | some text => Settings.parse text

/-- The settings of a file, with the failure that says which file it was. -/
def fileSettings (files : FileTree) (path : String) : Except Failure Settings :=
  (settingsOfFile files path).mapError fun problem =>
    .caused ("failed to load configuration from " ++ path) (settingsFailure problem)

/-- The settings of a run, before the environment overrides them. -/
def chosenSettings (files : FileTree) (config : Option String) : Except Failure Settings :=
  match config with
  | some path =>
    if files.exists? (.ofText path) then fileSettings files path
    else .error { message := "config file not found: " ++ path }
  | none =>
    match defaultPaths.find? fun path => files.exists? (.ofText path) with
    | some path => fileSettings files path
    | none => .ok {}

/-- The settings of a run. -/
def loadSettings (files : FileTree) (environment : Settings.Environment)
    (config : Option String) : Except Failure Settings := do
  let chosen ← chosenSettings files config
  (chosen.override environment).mapError fun problem =>
    .caused "invalid configuration in environment" (settingsFailure problem)

/-- The word for the kind of storage in a summary. -/
def storageWord : StorageKind → String
  | .disk => "Disk"
  | .memory => "Memory"

/-- The line on a record that had to be skipped. -/
def skippedLine (problem : LoadError) : String :=
  "  skipped   " ++ problem.path ++ ": " ++ problem.message ++ "\n"

/-- The line on a value that two rules claim. -/
def shadowedLine (ambiguity : Ambiguity) : String :=
  "  shadowed  " ++ ambiguity.shadowed ++ " (" ++ ambiguity.identity.name ++ "=" ++
    ambiguity.value ++ ") by " ++ ambiguity.winner ++ "\n"

/-- The line on a rule whose chain does not name the stage. -/
def foreignLine (stage : String) (rule : Rule) : String :=
  match rule.chain with
  | none => ""
  | some chain =>
    if chain.contains stage then ""
    else
      "  foreign   " ++ rule.source ++ ": chain '" ++ chain.text ++ "' does not include " ++
        stage ++ "\n"

/-- The lines on rules whose chains do not name the stage. -/
def foreignLines (stage : String) (index : RuleIndex) : String :=
  String.join (index.rules.toList.map (foreignLine stage))

/-- What the check prints of settings and rules, whatever the chains of the rules name. -/
def overview (settings : Settings) (report : LoadReport) (index : RuleIndex) : String :=
  "stage:      " ++ settings.stage.name ++ "\n" ++
    "rules:      " ++ settings.routing.directory ++ "\n" ++
    "storage:    " ++ storageWord settings.storage.kind ++ " (" ++ settings.storage.path ++ ")\n" ++
    "messaging:  " ++ settings.messaging.endpoint?.getD "(none)" ++ "\n" ++
    "loaded " ++ Decimal.text index.size ++ " rule(s), " ++ Decimal.text index.chained ++
    " chained, " ++ Decimal.text report.inactive ++ " inactive, " ++
    Decimal.text report.skipped.length ++ " skipped\n" ++
    String.join (report.skipped.map skippedLine) ++
    String.join (index.ambiguities.toList.map shadowedLine)

/-- The summary that the check prints. -/
def summary (settings : Settings) (report : LoadReport) : String :=
  let index := RuleIndex.ofRules report.rules
  overview settings report index ++ foreignLines settings.stage.name index

/-- An exit with a failure, after what has been printed. -/
def failed (output : String) (failure : Failure) : Outcome :=
  .exited 1 output failure.text

/-- Checks the rules that settings point to. -/
def check (files : FileTree) (settings : Settings) : Outcome :=
  match (RuleSource.directory settings.routing.directory).load files with
  | .error problem => failed "" (loadFailure problem)
  | .ok report =>
    let output := summary settings report
    if report.skipped.isEmpty then .exited 0 output ""
    else
      failed output
        { message := Decimal.text report.skipped.length ++ " rule record(s) skipped" }

/-- Makes the stage that settings describe ready. -/
def serve (files : FileTree) (settings : Settings) : Outcome :=
  if Route.isRoutable settings.stage.name then
    match RuleBook.load (.directory settings.routing.directory) files with
    | .error problem =>
      failed ""
        (.caused ("failed to load routing rules from " ++ settings.routing.directory)
          (loadFailure problem))
    | .ok book =>
      .serving
        { stage := Stage.ofSettings settings book settings.messaging.producer?
          ingestTopic := settings.server.ingestTopic
          maxPayload := settings.server.maxPayload }
  else
    failed ""
      { message := "stage name '" ++ settings.stage.name ++ "' collides with a built-in route" }

/-- Runs the program. -/
def run (arguments : List String) (environment : Settings.Environment) (files : FileTree) :
    Outcome :=
  match Arguments.read arguments with
  | .refused => .misused
  | .version => .exited 0 versionText ""
  | .help topic => .exited 0 (helpText topic) ""
  | .run command options =>
    match loadSettings files environment options.config with
    | .error failure => failed "" failure
    | .ok settings =>
      match command with
      | .serve => serve files settings
      | .check => check files settings

end EventRelay.CommandLine
