import EventRelay.FileTree
import EventRelay.Rule.Record

/-!
# Where rules come from

A source lists rules anew on every load. Rules that are inactive are counted and left out, and
records that are bad or cannot be read are reported beside the good rules; only a directory that
cannot be listed fails a load.
-/

namespace EventRelay

/-- Why rules cannot be loaded, with the bytes of the path concerned. -/
inductive LoadError
  | unreadable (location : Text.Bytes) (cause : FileError)
  | malformed (location : Text.Bytes) (cause : RecordError)
  | invalid (location : Text.Bytes) (cause : RuleError)
  deriving DecidableEq

namespace LoadError

/-- The bytes of the path concerned. -/
def location : LoadError → Text.Bytes
  | .unreadable location _ => location
  | .malformed location _ => location
  | .invalid location _ => location

/-- The path concerned, as it is shown. -/
def path (problem : LoadError) : String :=
  Text.Utf8.lossy problem.location

/-- The wording of what went wrong. -/
def cause : LoadError → String
  | .unreadable _ cause => cause.message
  | .malformed _ cause => cause.message
  | .invalid _ cause => cause.message

/-- The wording of an error. -/
def message (problem : LoadError) : String :=
  let failure :=
    match problem with
    | .unreadable .. => "failed to read"
    | .malformed .. => "malformed"
    | .invalid .. => "invalid"
  failure ++ " rule record " ++ problem.path ++ ": " ++ problem.cause

end LoadError

/-- The outcome of a load. -/
structure LoadReport where
  /-- Active rules in load order. -/
  rules : List Rule
  /-- Records that could not be loaded. -/
  skipped : List LoadError
  /-- How many rules were left out because they are inactive. -/
  inactive : Nat

namespace LoadReport

/-- The report of a load that found nothing. -/
def empty : LoadReport :=
  ⟨[], [], 0⟩

/-- The report after one more record. -/
def note (report : LoadReport) : Except LoadError Rule → LoadReport
  | .error problem => { report with skipped := report.skipped ++ [problem] }
  | .ok rule =>
    if rule.active then { report with rules := report.rules ++ [rule] }
    else { report with inactive := report.inactive + 1 }

end LoadReport

/-- A place that rules are loaded from. -/
inductive RuleSource
  /-- A directory with one record in each file. -/
  | directory (path : String)
  /-- A list of rules that are at hand. -/
  | memory (rules : List Rule)

namespace RuleSource

/-- The name of the source. -/
def describe : RuleSource → String
  | .directory path => path
  | .memory _ => "memory"

/-- The source with other rules at hand. A directory has no rules at hand and stays as it is. -/
def supply (source : RuleSource) (rules : List Rule) : RuleSource :=
  match source with
  | .directory path => .directory path
  | .memory _ => .memory rules

/-- Whether a file name has the extension of a record. -/
def isRecordName (name : Text.Bytes) : Bool :=
  (Text.Utf8.encode ".json").isSuffixOf name && name.length != 5

/-- Whether something in a directory is a record file: a regular file with the extension of a
record. What is too far away to be looked at is none. -/
def isRecord (directory : FilePath) (entry : FileEntry) : Bool :=
  isRecordName entry.name && entry.node.isFile && directory.reaches entry.name

/-- The record files of a directory, by increasing file name. -/
def recordFiles (directory : FilePath) (listed : List FileEntry) : List FileEntry :=
  (listed.filter (isRecord directory)).mergeSort fun a b => decide (a.name ≤ b.name)

/-- The rule of one record file, named as the file is shown. -/
def loadRecord (directory : FilePath) (file : FileEntry) : Except LoadError Rule := do
  let location := directory.withName file.name
  let content ← file.node.read.mapError (LoadError.unreadable location)
  let record ← (RuleRecord.parse content).mapError (LoadError.malformed location)
  (record.toRule (Text.Utf8.lossy file.name)).mapError (LoadError.invalid location)

/-- Loads the record files among what a directory lists. -/
def loadListed (directory : FilePath) (listed : List FileEntry) : LoadReport :=
  (recordFiles directory listed).foldl
    (fun report file => report.note (loadRecord directory file)) .empty

/-- Loads the record files of a directory. A directory that is not there holds no rules. -/
def loadDirectory (files : FileTree) (directory : String) : Except LoadError LoadReport :=
  let path := FilePath.ofText directory
  match files.list path with
  | .error .notFound => .ok .empty
  | .error cause => .error (.unreadable (Text.Utf8.encode directory) cause)
  | .ok listed => .ok (loadListed path listed)

/-- One rule at hand as a load sees it: whether a rule is valid matters only if it is active. -/
def check (rule : Rule) : Except LoadError Rule :=
  if rule.active then
    (rule.validate.mapError (LoadError.invalid (Text.Utf8.encode rule.source))).map fun _ => rule
  else .ok rule

/-- Loads the rules of a source. -/
def load (source : RuleSource) (files : FileTree) : Except LoadError LoadReport :=
  match source with
  | .directory path => loadDirectory files path
  | .memory rules => .ok (rules.foldl (fun report rule => report.note (check rule)) .empty)

end RuleSource

end EventRelay
