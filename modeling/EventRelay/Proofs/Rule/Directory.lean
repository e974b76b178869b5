import EventRelay.Proofs.Listing
import EventRelay.Proofs.Rule.WellFormed

/-!
# Loads of a directory

A load goes through the record files of a directory in the byte order of their names, whatever order
they are listed in. Each of them gives a rule, an inactive rule or an error, and what it gives has
nothing to do with the files beside it. A file that cannot be read gives an error. A name that is no
text is shown as one, and two names can be shown alike, so what a report says is traced to the files
and not to the names of its rules.
-/

namespace EventRelay

open Text (Bytes)

/-! ## Reports -/

namespace LoadReport

end LoadReport

namespace RuleSource

variable {files other : FileTree} {directory : FilePath} {place : Place} {name : String}
  {listed found : List FileEntry} {file : FileEntry}

/-! ## One record -/

/-- A name with the extension of records and something in front of it. -/
def HasExtension (name : Bytes) : Prop :=
  ∃ stem, stem ≠ [] ∧ name = stem ++ Text.Utf8.encode ".json"

theorem isRecordName_iff {name : Bytes} : isRecordName name = true ↔ HasExtension name := by
  have length : (Text.Utf8.encode ".json").length = 5 := by decide
  rw [isRecordName, Bool.and_eq_true, List.isSuffixOf_iff_suffix, bne_iff_ne]
  constructor
  · rintro ⟨⟨stem, rfl⟩, longer⟩
    refine ⟨stem, ?_, rfl⟩
    rintro rfl
    exact longer length
  · rintro ⟨stem, filled, rfl⟩
    refine ⟨List.suffix_append _ _, ?_⟩
    have positive := List.length_pos_iff.mpr filled
    rw [List.length_append, length]
    omega

/-- A record file that a directory shows: a regular file with the extension of records, which is not
too far away to be looked at. -/
structure RecordFile (directory : FilePath) (listed : List FileEntry) (file : FileEntry) :
    Prop where
  shown : file ∈ listed
  extension : HasExtension file.name
  regular : ∃ content, file.node = .file content
  reached : directory.reaches file.name = true

theorem mem_recordFiles :
    file ∈ recordFiles directory listed ↔ RecordFile directory listed file := by
  have regular : file.node.isFile = true ↔ ∃ content, file.node = .file content := by
    cases file.node <;> simp [FileNode.isFile]
  rw [recordFiles, List.mem_mergeSort, List.mem_filter, isRecord, Bool.and_eq_true,
    Bool.and_eq_true, isRecordName_iff, regular]
  exact ⟨fun ⟨shown, ⟨extension, regular⟩, reached⟩ => ⟨shown, extension, regular, reached⟩,
    fun record => ⟨record.shown, ⟨record.extension, record.regular⟩, record.reached⟩⟩

/-- The order of files by the bytes of their names. -/
def Precedes (first second : FileEntry) : Prop :=
  first.name < second.name

instance : Std.Irrefl Precedes where
  irrefl file less := List.lt_irrefl file.name less

instance : Std.Antisymm Precedes where
  antisymm _ _ less more := absurd less (List.lt_asymm more)

/-- Record files are in increasing order of their names. -/
theorem pairwise_recordFiles (distinct : (listed.map FileEntry.name).Nodup) :
    (recordFiles directory listed).Pairwise Precedes := by
  have ordered : (recordFiles directory listed).Pairwise fun a b => a.name ≤ b.name := by
    have sorted : (recordFiles directory listed).Pairwise fun a b => decide (a.name ≤ b.name) :=
      List.pairwise_mergeSort (by simpa using fun a b c => List.le_trans)
        (by simpa using fun a b => List.le_total _ _) _
    exact sorted.imp of_decide_eq_true
  have once : ((recordFiles directory listed).map FileEntry.name).Nodup := by
    have kept := (List.mergeSort_perm (listed.filter (isRecord directory))
      fun a b => decide (a.name ≤ b.name)).map FileEntry.name
    exact kept.nodup_iff.mpr (distinct.sublist (List.filter_sublist.map _))
  exact (ordered.and (List.pairwise_map.mp once)).imp fun both => Std.lt_of_le_of_ne both.1 both.2

/-- Where the names are in order already, there is nothing to sort. -/
theorem recordFiles_of_pairwise (ordered : listed.Pairwise fun a b => a.name ≤ b.name) :
    recordFiles directory listed = listed.filter (isRecord directory) :=
  List.mergeSort_of_pairwise ((ordered.filter _).imp decide_eq_true)

/-- The record files among what a directory shows, each of them once and in order. -/
structure Catalogue (directory : FilePath) (listed records : List FileEntry) : Prop where
  ordered : records.Pairwise Precedes
  complete : ∀ file, file ∈ records ↔ RecordFile directory listed file

theorem catalogue_recordFiles (distinct : (listed.map FileEntry.name).Nodup) :
    Catalogue directory listed (recordFiles directory listed) :=
  ⟨pairwise_recordFiles distinct, fun _ => mem_recordFiles⟩

/-- There is one catalogue of the same record files. -/
theorem Catalogue.unique {records others : List FileEntry}
    (catalogue : Catalogue directory listed records) (also : Catalogue directory found others)
    (same : ∀ file, RecordFile directory found file ↔ RecordFile directory listed file) :
    others = records := by
  -- Lists in strictly increasing order are equal when they have the same members.
  refine also.ordered.eq_of_mem_iff catalogue.ordered fun file => ?_
  rw [also.complete, catalogue.complete, same]

/-! ## Reports on record files -/

/-- The outcomes of some record files of a directory. -/
def outcomes (directory : FilePath) (records : List FileEntry) : List (Except LoadError Rule) :=
  records.map (loadRecord directory)

/-- The report on some record files of a directory. -/
def reportOn (directory : FilePath) (records : List FileEntry) : LoadReport :=
  ⟨(outcomes directory records).filterMap LoadReport.kept?,
    (outcomes directory records).filterMap LoadReport.refused?,
    (outcomes directory records).countP LoadReport.isInactive⟩

theorem loadListed_eq (directory : FilePath) (listed : List FileEntry) :
    loadListed directory listed = reportOn directory (recordFiles directory listed) := by
  rw [loadListed, ← List.foldl_map, LoadReport.foldl_note]
  simp [LoadReport.empty, outcomes, reportOn]

/-- A load reports on the catalogue of the directory. -/
theorem exists_catalogue (distinct : files.Distinct) {path : String}
    (shows : files.list (.ofText path) = .ok listed) :
    ∃ records, Catalogue (.ofText path) listed records ∧
      load (.directory path) files = .ok (reportOn (.ofText path) records) := by
  obtain ⟨place, -, rfl⟩ := FileTree.list_eq_ok.mp shows
  refine ⟨_, catalogue_recordFiles (distinct.nodup_contents place), ?_⟩
  rw [load, loadDirectory, shows, ← loadListed_eq]

/-- Part of what a report says of some record files, each time with the file that it is from. -/
def traced {Part : Type} (part? : Except LoadError Rule → Option Part) (directory : FilePath)
    (records : List FileEntry) : List (FileEntry × Part) :=
  records.filterMap fun file => (part? (loadRecord directory file)).map (file, ·)

section

variable {Part : Type} {part? : Except LoadError Rule → Option Part} {records : List FileEntry}

end

/-! ## Order -/

/-- The rules that a load keeps, each with its file. -/
def keptRules (directory : FilePath) (records : List FileEntry) : List (FileEntry × Rule) :=
  traced LoadReport.kept? directory records

/-- The errors that a load reports, each with its file. -/
def skippedFiles (directory : FilePath) (records : List FileEntry) : List (FileEntry × LoadError) :=
  traced LoadReport.refused? directory records

/-- How a report accounts for record files: each of them is a rule, an error or an inactive rule. -/
structure Accounts (directory : FilePath) (records : List FileEntry) (report : LoadReport) :
    Prop where
  rules : report.rules = (keptRules directory records).map Prod.snd
  skipped : report.skipped = (skippedFiles directory records).map Prod.snd
  inactive : report.inactive = (outcomes directory records).countP LoadReport.isInactive
  total : report.rules.length + report.skipped.length + report.inactive = records.length
  /-- A rule is that of its record and is named as the file is shown, which is the name itself where
  that is a text. -/
  sources : ∀ kept ∈ keptRules directory records, kept.1 ∈ records ∧
    loadRecord directory kept.1 = .ok kept.2 ∧ kept.2.source = Text.Utf8.lossy kept.1.name ∧
    ∀ text, kept.1.name = Text.Utf8.encode text → kept.2.source = text
  /-- Rules are in the order of the names of their files. -/
  increasing : (keptRules directory records).Pairwise fun first second =>
    Precedes first.1 second.1
  /-- An error is that of its file and has its path. -/
  paths : ∀ skipped ∈ skippedFiles directory records, skipped.1 ∈ records ∧
    loadRecord directory skipped.1 = .error skipped.2 ∧
    skipped.2.location = directory.withName skipped.1.name
  /-- No two errors have one path. -/
  apart : (skippedFiles directory records).Pairwise fun first second =>
    first.2.location ≠ second.2.location
  /-- A file that cannot be read is skipped, with the reason. -/
  unreadable : ∀ file ∈ records, ∀ cause, file.node = .file (.error cause) →
    (file, .unreadable (directory.withName file.name) cause) ∈ skippedFiles directory records

end RuleSource

end EventRelay
