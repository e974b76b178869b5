import EventRelay.Proofs.Chain.Reading
import EventRelay.Proofs.Rule.Directory
import EventRelay.Proofs.Rule.Restatement

/-!
# How sources classify rules

A load keeps a rule, skips it or leaves it out as inactive. A directory skips every record of an
invalid rule. Of the rules at hand only those are skipped that are active as well: whether an
inactive one is valid is not asked. So the reports on the same rules are alike unless one of them is
inactive and invalid.
-/

namespace EventRelay

open Text (Bytes)

namespace Rule

/-- Whether a rule is valid. -/
def isValid (rule : Rule) : Bool :=
  rule.validate.isOk

/-- The rule as one from a record of this name. -/
def renamed (rule : Rule) (name : String) : Rule :=
  { rule with source := name }

/-- The rule without the name of its record. -/
def unnamed (rule : Rule) : Rule :=
  rule.renamed ""

/-- There is one cause for which a rule is refused. -/
theorem validate_eq (rule : Rule) :
    rule.validate = if rule.isValid then .ok () else .error .noIdentity := by
  unfold isValid validate
  split <;> rfl

theorem isValid_iff {rule : Rule} : rule.isValid = true ↔ rule.validate = .ok () := by
  rw [validate_eq]
  cases rule.isValid <;> simp

/-! ## Records of a rule -/

/-- The text that a rule has for a field of its records. Whether it is active is no text. -/
def text? (rule : Rule) : RecordField → Option String
  | .project => rule.project
  | .streamAlias => rule.streamAlias
  | .stream => rule.stream
  | .stages => rule.chain.map Chain.text
  | .active => none
  | .messageType => rule.messageType
  | .folderName => rule.folderName

end Rule

/-- A record of a rule: it gives every text of the rule and no others, and it says that the rule is
inactive where it is. -/
structure RuleRecord.IsOf (record : RuleRecord) (rule : Rule) : Prop where
  texts : ∀ field, field ≠ .active → record.text? field = rule.text? field
  active : (record.flag? .active).getD true = rule.active

/-- The bytes spell a record of the rule. -/
def Rule.IsWrittenAs (rule : Rule) (content : Bytes) : Prop :=
  ∃ record, RuleRecord.parse content = .ok record ∧ record.IsOf rule

/-- The text of the chain of a rule is read as this chain. -/
theorem Rule.Sound.parse_text {rule : Rule} (sound : rule.Sound) (commaFree : rule.CommaFree)
    {chain : Chain} (held : rule.chain = some chain) : Chain.parse chain.text = .ok chain :=
  (sound.chained chain held).2.parse_text (commaFree chain held)

namespace RuleRecord

variable {rule : Rule} {record : RuleRecord}

/-- A record of a rule has the chain of the rule. -/
theorem IsOf.chain?_eq (isOf : record.IsOf rule) (sound : rule.Sound)
    (commaFree : rule.CommaFree) : record.chain? = .ok rule.chain := by
  have given := isOf.texts .stages (by simp)
  rw [chain?, given, Rule.text?]
  cases held : rule.chain with
  | none => rfl
  | some chain =>
    have filled : chain.stages.isEmpty = false := by
      simpa using (sound.chained chain held).1
    simp [sound.parse_text commaFree held, Except.map, filled]

/-- A record of a rule makes this rule, unless the rule is invalid. -/
theorem IsOf.toRule_eq (isOf : record.IsOf rule) (sound : rule.Sound)
    (commaFree : rule.CommaFree) (name : String) :
    record.toRule name = rule.validate.map fun _ => rule.renamed name := by
  have same : record.ruleOf name rule.chain = rule.renamed name := by
    rw [ruleOf, isOf.texts .project (by simp), isOf.texts .streamAlias (by simp),
      isOf.texts .stream (by simp), isOf.texts .messageType (by simp),
      isOf.texts .folderName (by simp), isOf.active]
    rfl
  have check : (rule.renamed name).validate = rule.validate := rfl
  rw [RuleRecord.toRule_eq, isOf.chain?_eq sound commaFree, Except.bind, same, check]
  cases rule.validate <;> rfl

end RuleRecord

namespace Rule

variable {rule : Rule}

/-- The value of a field in the record of a rule; null where the rule has none. -/
def fieldValue (rule : Rule) (field : RecordField) : Json :=
  if field = .active then .boolean rule.active else (rule.text? field).elim .null .text

/-- All fields of a rule. -/
def fields (rule : Rule) : List (RecordField × Json) :=
  RecordField.all.map fun field => (field, rule.fieldValue field)

/-- The record of a rule as an object that gives all fields. -/
def written (rule : Rule) : Json :=
  .object (rule.fields.map fun field => (field.1.name, field.2))

theorem lookup_fields (rule : Rule) (field : RecordField) :
    rule.fields.lookup field = some (rule.fieldValue field) := by
  cases field <;> rfl

/-- The value of a field is no container and no number. -/
theorem fieldValue_plain (rule : Rule) (field : RecordField) :
    (rule.fieldValue field).depth = 0 ∧ (rule.fieldValue field).numbers = [] := by
  unfold fieldValue
  split
  · exact ⟨rfl, rfl⟩
  · cases rule.text? field <;> exact ⟨rfl, rfl⟩

theorem isObjectOf_written (rule : Rule) :
    RuleRecord.IsObjectOf rule.written.bytes rule.fields := by
  have once : (rule.fields.map Prod.fst).Nodup := by
    rw [fields, List.map_map]
    exact (by decide : RecordField.all.Nodup)
  refine RuleRecord.isObjectOf_bytes once (Json.readable_of_integers ?_) ?_
  · simp [fields, fieldValue_plain]
  · simp [fields, RecordField.all, Json.depth, Json.depthOfMembers, fieldValue_plain, Json.maxDepth]

/-- A sound rule has no empty texts but those for information, if these are not. -/
theorem Sound.text?_ne_empty (sound : rule.Sound) (commaFree : rule.CommaFree)
    (messageType : rule.messageType ≠ some "") (folderName : rule.folderName ≠ some "")
    (field : RecordField) : rule.text? field ≠ some "" := by
  cases field with
  | project => exact sound.filled .project
  | streamAlias => exact sound.filled .streamAlias
  | stream => exact sound.filled .stream
  | stages =>
    intro empty
    obtain ⟨chain, held, empty⟩ := Option.map_eq_some_iff.mp empty
    have parsed := sound.parse_text commaFree held
    rw [empty] at parsed
    obtain rfl : Chain.mk [] = chain := Except.ok.inj parsed
    exact (sound.chained _ held).1 rfl
  | active => simp [text?]
  | messageType => exact messageType
  | folderName => exact folderName

/-- A sound rule without commas and empty texts is written as an object of all its fields. -/
theorem Sound.isWrittenAs (sound : rule.Sound) (commaFree : rule.CommaFree)
    (messageType : rule.messageType ≠ some "") (folderName : rule.folderName ≠ some "") :
    rule.IsWrittenAs rule.written.bytes := by
  have object := rule.isObjectOf_written
  refine ⟨_, object.parse_eq, fun field noFlag => ?_, ?_⟩
  · rw [RuleRecord.text?_ofGiven object.once, lookup_fields, Option.bind_some, fieldValue,
      if_neg noFlag]
    cases held : rule.text? field with
    | none => rfl
    | some text =>
      have filled := sound.text?_ne_empty commaFree messageType folderName field
      rw [held, ne_eq, Option.some.injEq] at filled
      exact Rule.present?_eq_some_iff.mpr ⟨rfl, filled⟩
  · rw [RuleRecord.flag?_ofGiven object.once, lookup_fields]
    rfl

end Rule

/-! ## Reports -/

namespace LoadReport

/-- A report on the given rules, each with the path that it is reported under if it is skipped: it
keeps the active ones that are valid, in order, reports those that are skipped as rules without
identity, and counts the inactive ones among the others. -/
structure Sorts (report : LoadReport) (skips : Rule → Bool) (given : List (Bytes × Rule)) :
    Prop where
  rules : report.rules = (given.map Prod.snd).filter fun rule => rule.active && rule.isValid
  skipped : report.skipped =
    (given.filter fun item => skips item.2).map fun item => .invalid item.1 .noIdentity
  inactive : report.inactive =
    (given.map Prod.snd).countP fun rule => !rule.active && !skips rule

/-- Two reports with the same rules but for the names of their records, with as many errors and as
many inactive rules. -/
structure Alike (first second : LoadReport) : Prop where
  rules : first.rules.map Rule.unnamed = second.rules.map Rule.unnamed
  skipped : first.skipped.length = second.skipped.length
  inactive : first.inactive = second.inactive

/-- The report on these outcomes. -/
def ofOutcomes (outcomes : List (Except LoadError Rule)) : LoadReport :=
  ⟨outcomes.filterMap kept?, outcomes.filterMap refused?, outcomes.countP isInactive⟩

/-- The outcome of a rule that is skipped, under this path, or not. -/
def outcomeOf (skips : Rule → Bool) (item : Bytes × Rule) : Except LoadError Rule :=
  if skips item.2 then .error (.invalid item.1 .noIdentity) else .ok item.2

variable {skips : Rule → Bool}

theorem kept?_outcomeOf (item : Bytes × Rule) :
    kept? (outcomeOf skips item) =
      Option.guard (fun rule => rule.active && !skips rule) item.2 := by
  unfold outcomeOf
  cases skipped : skips item.2 <;> simp [kept?, Option.guard, skipped]

theorem refused?_outcomeOf (item : Bytes × Rule) :
    refused? (outcomeOf skips item) =
      if skips item.2 then some (.invalid item.1 .noIdentity) else none := by
  unfold outcomeOf
  cases skips item.2 <;> rfl

theorem isInactive_outcomeOf (item : Bytes × Rule) :
    isInactive (outcomeOf skips item) = (!item.2.active && !skips item.2) := by
  unfold outcomeOf
  cases skips item.2 <;> simp [isInactive]

/-- The report on the outcomes is as described, where of the active rules the invalid ones are
skipped. -/
theorem sorts_ofOutcomes
    (valid : ∀ rule, (rule.active && !skips rule) = (rule.active && rule.isValid))
    (given : List (Bytes × Rule)) :
    (ofOutcomes (given.map (outcomeOf skips))).Sorts skips given where
  rules := by
    simp only [ofOutcomes, List.filterMap_map, Function.comp_def, kept?_outcomeOf, ← valid]
    rw [← List.filterMap_eq_filter, List.filterMap_map]
    rfl
  skipped := by
    simp only [ofOutcomes, List.filterMap_map, Function.comp_def, refused?_outcomeOf]
    induction given with
    | nil => rfl
    | cons item rest inductionHypothesis =>
      cases skipped : skips item.2 <;> simp [skipped, inductionHypothesis]
  inactive := by
    simp only [ofOutcomes, List.countP_map, Function.comp_def, isInactive_outcomeOf]

/-! ## Reports that are alike -/

variable {given named : List Rule} {test : Rule → Bool}

/-- A test that does not ask for the name of a record passes the same rules under other names. -/
theorem map_unnamed_filter (same : named.map Rule.unnamed = given.map Rule.unnamed)
    (blind : ∀ rule, test (Rule.unnamed rule) = test rule) :
    (named.filter test).map Rule.unnamed = (given.filter test).map Rule.unnamed := by
  have filtered := congrArg (List.filter test) same
  simpa only [List.filter_map, Function.comp_def, blind] using filtered

/-- A test that does not ask for the name of a record counts as many rules under other names. -/
theorem countP_of_unnamed (same : named.map Rule.unnamed = given.map Rule.unnamed)
    (blind : ∀ rule, test (Rule.unnamed rule) = test rule) :
    named.countP test = given.countP test := by
  have counted := congrArg (List.countP test) same
  simpa only [List.countP_map, Function.comp_def, blind] using counted

/-- The number of rules that are inactive and invalid. -/
def idle (given : List Rule) : Nat :=
  given.countP fun rule => !rule.active && !rule.isValid

theorem idle_eq_zero_iff :
    idle given = 0 ↔ ∀ rule ∈ given, rule.active = false → rule.validate = .ok () := by
  rw [idle, List.countP_eq_zero]
  refine forall₂_congr fun rule _ => ?_
  rw [← Rule.isValid_iff]
  cases rule.active <;> simp

/-- Invalid rules are active or idle, and so inactive rules are valid or idle. -/
theorem countP_idle (given : List Rule) :
    (given.countP fun rule => !rule.isValid) =
        (given.countP fun rule => rule.active && !rule.isValid) + idle given ∧
      (given.countP fun rule => !rule.active) =
        (given.countP fun rule => !rule.active && rule.isValid) + idle given := by
  unfold idle
  induction given with
  | nil => exact ⟨rfl, rfl⟩
  | cons rule rest inductionHypothesis =>
    simp only [List.countP_cons]
    cases rule.active <;> cases rule.isValid <;> simp <;> omega

end LoadReport

namespace RuleSource

open LoadReport

variable {files : FileTree} {path : String} {file : FileEntry} {records : List FileEntry}
  {rule : Rule} {given : List Rule}

/-- Of the rules at hand those are skipped that are active and invalid. -/
def skipsAtHand (rule : Rule) : Bool :=
  rule.active && !rule.isValid

/-- Of the records of a directory those are skipped that are invalid. -/
def skipsRecorded (rule : Rule) : Bool :=
  !rule.isValid

/-- The given rules, each reported under its own name. -/
def atHand (given : List Rule) : List (Bytes × Rule) :=
  given.map fun rule => (Text.Utf8.encode rule.source, rule)

theorem check_eq (rule : Rule) :
    check rule = outcomeOf skipsAtHand (Text.Utf8.encode rule.source, rule) := by
  rw [check, rule.validate_eq, outcomeOf, skipsAtHand]
  cases rule.active <;> cases rule.isValid <;> rfl

/-- What a load reports of rules at hand. -/
theorem exists_load_memory (given : List Rule) (files : FileTree) :
    ∃ report, load (.memory given) files = .ok report ∧
      report.Sorts skipsAtHand (atHand given) := by
  have valid : ∀ rule : Rule,
      (rule.active && !skipsAtHand rule) = (rule.active && rule.isValid) := by
    intro rule
    rw [skipsAtHand]
    cases rule.active <;> cases rule.isValid <;> rfl
  refine ⟨_, ?_, sorts_ofOutcomes valid _⟩
  rw [load, ← List.foldl_map, foldl_note, List.map_congr_left fun rule _ => check_eq rule]
  simp [LoadReport.empty, ofOutcomes, atHand, Function.comp_def]

/-- A file that holds a record of the rule. -/
def Holds (rule : Rule) (file : FileEntry) : Prop :=
  ∃ content, file.node = .file (.ok content) ∧ rule.IsWrittenAs content

/-- The rule of a file that holds a record of it: it is named as the file is shown, and reported
under the path of the file. -/
def recordedAs (path : String) (rule : Rule) (file : FileEntry) : Bytes × Rule :=
  ((FilePath.ofText path).withName file.name, rule.renamed (Text.Utf8.lossy file.name))

/-- A record of a rule is loaded as this rule under the name of the file, or skipped. -/
theorem loadRecord_eq (holds : Holds rule file) (sound : rule.Sound) (commaFree : rule.CommaFree)
    (path : String) :
    loadRecord (.ofText path) file = outcomeOf skipsRecorded (recordedAs path rule file) := by
  obtain ⟨content, stored, record, parsed, isOf⟩ := holds
  have valid : (rule.renamed (Text.Utf8.lossy file.name)).isValid = rule.isValid := rfl
  rw [loadRecord_eq_steps, stored, outcomeOf, skipsRecorded, recordedAs]
  simp only [FileNode.read, parsed]
  rw [isOf.toRule_eq sound commaFree, rule.validate_eq, valid]
  cases rule.isValid <;> rfl

/-- The given rules as those of these files. -/
def recorded (path : String) (given : List Rule) (records : List FileEntry) :
    List (Bytes × Rule) :=
  List.zipWith (recordedAs path) given records

/-- A directory whose record files, by increasing name, hold records of the given rules. -/
structure RecordsOf (files : FileTree) (path : String) (records : List FileEntry)
    (given : List Rule) : Prop where
  distinct : files.Distinct
  catalogue : ∃ listed, files.list (.ofText path) = .ok listed ∧
    Catalogue (.ofText path) listed records
  written : List.Forall₂ Holds given records

/-- Every record has the outcome of its rule. -/
theorem outcomes_eq (written : List.Forall₂ Holds given records)
    (sound : ∀ rule ∈ given, rule.Sound ∧ rule.CommaFree) (path : String) :
    outcomes (.ofText path) records =
      (recorded path given records).map (outcomeOf skipsRecorded) := by
  induction written with
  | nil => rfl
  | cons first _ inductionHypothesis =>
    rw [List.forall_mem_cons] at sound
    have rest := inductionHypothesis sound.2
    rw [outcomes] at rest
    rw [outcomes, List.map_cons, rest, loadRecord_eq first sound.1.1 sound.1.2]
    rfl

/-- What a load reports of a directory with records of the given rules. -/
theorem RecordsOf.exists_load (recordsOf : RecordsOf files path records given)
    (sound : ∀ rule ∈ given, rule.Sound ∧ rule.CommaFree) :
    ∃ report, load (.directory path) files = .ok report ∧
      report.Sorts skipsRecorded (recorded path given records) := by
  obtain ⟨listed, shows, isCatalogue⟩ := recordsOf.catalogue
  obtain ⟨others, catalogue, loaded⟩ := exists_catalogue recordsOf.distinct shows
  obtain rfl := isCatalogue.unique catalogue fun _ => .rfl
  have report : reportOn (.ofText path) others =
      ofOutcomes ((recorded path given others).map (outcomeOf skipsRecorded)) := by
    rw [← outcomes_eq recordsOf.written sound]
    rfl
  have valid : ∀ rule : Rule,
      (rule.active && !skipsRecorded rule) = (rule.active && rule.isValid) := by
    intro rule
    rw [skipsRecorded, Bool.not_not]
  exact ⟨_, loaded, report ▸ sorts_ofOutcomes valid _⟩

theorem map_unnamed_recorded (path : String) (same : given.length = records.length) :
    ((recorded path given records).map Prod.snd).map Rule.unnamed = given.map Rule.unnamed := by
  rw [recorded, List.map_zipWith, List.map_zipWith]
  induction given generalizing records with
  | nil => rfl
  | cons rule rest inductionHypothesis =>
    cases records with
    | nil => simp at same
    | cons file files =>
      rw [List.zipWith_cons_cons, inductionHypothesis (by simpa using same), List.map_cons]
      rfl

/-- The reports differ in the idle rules alone, which are inactive at hand and skipped in a
directory. -/
theorem differ_in_idle {report found : LoadReport} {named : List (Bytes × Rule)}
    (inMemory : report.Sorts skipsAtHand (atHand given))
    (inDirectory : found.Sorts skipsRecorded named)
    (same : (named.map Prod.snd).map Rule.unnamed = given.map Rule.unnamed) :
    report.rules.map Rule.unnamed = found.rules.map Rule.unnamed ∧
      found.skipped.length = report.skipped.length + idle given ∧
      report.inactive = found.inactive + idle given := by
  obtain ⟨skipped, inactive⟩ := countP_idle given
  have rules : (atHand given).map Prod.snd = given := by simp [atHand, Function.comp_def]
  have count : ∀ (test : Rule → Bool) (items : List (Bytes × Rule)),
      (items.filter fun item => test item.2).length = (items.map Prod.snd).countP test := by
    intro test items
    rw [← List.countP_eq_length_filter, List.countP_map]
    rfl
  refine ⟨?_, ?_, ?_⟩
  · rw [inMemory.rules, inDirectory.rules, rules]
    exact (map_unnamed_filter same fun _ => rfl).symm
  · rw [inMemory.skipped, inDirectory.skipped, List.length_map, List.length_map, count, count,
      rules, countP_of_unnamed same fun _ => rfl]
    exact skipped
  · have counted : (given.countP fun rule => !rule.active && !skipsAtHand rule) =
        given.countP fun rule => !rule.active := by
      refine List.countP_congr fun rule _ => ?_
      rw [skipsAtHand]
      cases rule.active <;> simp
    have named : (given.countP fun rule => !rule.active && !skipsRecorded rule) =
        given.countP fun rule => !rule.active && rule.isValid := by
      refine List.countP_congr fun rule _ => ?_
      rw [skipsRecorded, Bool.not_not]
    rw [inMemory.inactive, inDirectory.inactive, rules, countP_of_unnamed same fun _ => rfl,
      counted, named]
    exact inactive

/-- A load of rules at hand keeps the active rules that are valid, in order, skips the active ones
that are invalid, and counts every other rule as inactive. A load of a directory with records of the
same rules keeps the same rules and counts as inactive the valid ones only: it skips every rule that
is invalid. So the reports are alike unless some rule is both inactive and invalid. -/
theorem classifies_alike_iff (given : List Rule) (files : FileTree) :
    ∃ report, load (.memory given) files = .ok report ∧
      report.Sorts skipsAtHand (atHand given) ∧
      ((∀ rule ∈ given, rule.Sound ∧ rule.CommaFree) →
        ∀ path records, RecordsOf files path records given →
          ∃ found, load (.directory path) files = .ok found ∧
            found.Sorts skipsRecorded (recorded path given records) ∧
            report.rules.map Rule.unnamed = found.rules.map Rule.unnamed ∧
            found.skipped.length = report.skipped.length + idle given ∧
            report.inactive = found.inactive + idle given ∧
            (report.Alike found ↔
              ∀ rule ∈ given, rule.active = false → rule.validate = .ok ())) := by
  obtain ⟨report, loaded, inMemory⟩ := exists_load_memory given files
  refine ⟨report, loaded, inMemory, fun sound path records recordsOf => ?_⟩
  obtain ⟨found, listed, inDirectory⟩ := recordsOf.exists_load sound
  have same := map_unnamed_recorded path recordsOf.written.length_eq
  obtain ⟨rules, skipped, inactive⟩ := differ_in_idle inMemory inDirectory same
  refine ⟨found, listed, inDirectory, rules, skipped, inactive, ?_⟩
  rw [← idle_eq_zero_iff]
  constructor
  · intro alike
    have asMany := alike.skipped
    omega
  · intro none
    exact ⟨rules, by omega, by omega⟩

/-- An inactive rule that is invalid: it has a chain and no identity. -/
def idleRule : Rule :=
  ((Rule.named "idle.json").withChain ⟨["bronze"]⟩).withActive false

/-- An active rule that is valid. -/
def orderRule : Rule :=
  ((Rule.named "orders.json").withIdentity .stream "s1").withChain ⟨["bronze", "silver"]⟩

/-- A directory with two records. -/
def twoRecords (first second : Bytes) : FileTree where
  entries :=
    [(["rules"], .directory), (["rules", "idle.json"], .file (.ok first)),
      (["rules", "orders.json"], .file (.ok second))]

/-- A directory with the records of both rules. -/
def mixedFiles : FileTree :=
  twoRecords idleRule.written.bytes orderRule.written.bytes

/-- These records. -/
def mixedRecords : List FileEntry :=
  [⟨Text.Utf8.encode "idle.json", .file (.ok idleRule.written.bytes)⟩,
    ⟨Text.Utf8.encode "orders.json", .file (.ok orderRule.written.bytes)⟩]

theorem sound_mixed : ∀ rule ∈ [idleRule, orderRule], rule.Sound ∧ rule.CommaFree := by
  have idleChain : Chain.ofNames ["bronze"] = .ok ⟨["bronze"]⟩ := by decide +kernel
  have orderChain : Chain.ofNames ["bronze", "silver"] = .ok ⟨["bronze", "silver"]⟩ := by
    decide +kernel
  rw [List.forall_mem_cons, List.forall_mem_singleton]
  refine ⟨⟨(((Rule.Built.named _).withChain (.ofNames idleChain)).withActive _).sound, ?_⟩,
    ⟨(((Rule.Built.named _).withIdentity _ _).withChain (.ofNames orderChain)).sound, ?_⟩⟩
  · rintro _ held
    obtain rfl := Option.some.inj held
    decide
  · rintro _ held
    obtain rfl := Option.some.inj held
    decide

theorem catalogue_twoRecords (first second : Bytes) :
    (twoRecords first second).Distinct ∧
      ∃ listed, (twoRecords first second).list (.ofText "rules") = .ok listed ∧
        Catalogue (.ofText "rules") listed
          [⟨Text.Utf8.encode "idle.json", .file (.ok first)⟩,
            ⟨Text.Utf8.encode "orders.json", .file (.ok second)⟩] := by
  have distinct : (twoRecords first second).Distinct := by
    refine ⟨?_, List.nodup_nil⟩
    change [["rules"], ["rules", "idle.json"], ["rules", "orders.json"]].Nodup
    decide
  have shows : (twoRecords first second).list (.ofText "rules") =
      .ok ((twoRecords first second).contents ["rules"]) :=
    FileTree.list_eq_ok.mpr ⟨["rules"], rfl, rfl⟩
  have contents : (twoRecords first second).contents ["rules"] =
      [⟨Text.Utf8.encode "idle.json", .file (.ok first)⟩,
        ⟨Text.Utf8.encode "orders.json", .file (.ok second)⟩] := rfl
  have catalogue := @catalogue_recordFiles (.ofText "rules") _ (distinct.nodup_contents ["rules"])
  rw [recordFiles_of_pairwise, contents] at catalogue
  · exact ⟨distinct, _, shows, contents ▸ catalogue⟩
  · rw [contents, List.pairwise_pair]
    change Text.Utf8.encode "idle.json" ≤ Text.Utf8.encode "orders.json"
    decide

theorem recordsOf_mixed : RecordsOf mixedFiles "rules" mixedRecords [idleRule, orderRule] := by
  obtain ⟨distinct, catalogue⟩ :=
    catalogue_twoRecords idleRule.written.bytes orderRule.written.bytes
  have sound := sound_mixed
  rw [List.forall_mem_cons, List.forall_mem_singleton] at sound
  obtain ⟨⟨idle, idleCommaFree⟩, order, orderCommaFree⟩ := sound
  have idleWritten : idleRule.IsWrittenAs idleRule.written.bytes :=
    idle.isWrittenAs idleCommaFree nofun nofun
  have orderWritten : orderRule.IsWrittenAs orderRule.written.bytes :=
    order.isWrittenAs orderCommaFree nofun nofun
  exact ⟨distinct, catalogue, .cons ⟨_, rfl, idleWritten⟩ (.cons ⟨_, rfl, orderWritten⟩ .nil)⟩

/-- Where one of two rules is inactive and invalid, the reports differ by that one. -/
theorem classifies_alike_iff_mixed :
    (∀ rule ∈ [idleRule, orderRule], rule.Sound ∧ rule.CommaFree) ∧
      RecordsOf mixedFiles "rules" mixedRecords [idleRule, orderRule] ∧
      ∃ report found, load (.memory [idleRule, orderRule]) mixedFiles = .ok report ∧
        load (.directory "rules") mixedFiles = .ok found ∧
        found.skipped.length = report.skipped.length + 1 ∧
        report.inactive = found.inactive + 1 ∧ ¬ report.Alike found := by
  obtain ⟨report, loaded, -, compared⟩ :=
    classifies_alike_iff [idleRule, orderRule] mixedFiles
  obtain ⟨found, listed, -, -, skipped, inactive, alike⟩ :=
    compared sound_mixed "rules" mixedRecords recordsOf_mixed
  have one : idle [idleRule, orderRule] = 1 := by decide
  rw [one] at skipped inactive
  refine ⟨sound_mixed, recordsOf_mixed, report, found, loaded, listed, skipped, inactive, ?_⟩
  rw [alike]
  decide

/-- An inactive rule that is invalid is not skipped at hand, as its record in a directory is. -/
theorem idle_rule_not_skipped :
    idleRule.validate = .error .noIdentity ∧
      RecordsOf mixedFiles "rules" mixedRecords [idleRule, orderRule] ∧
      load (.memory [idleRule, orderRule]) mixedFiles = .ok ⟨[orderRule], [], 1⟩ ∧
      load (.directory "rules") mixedFiles =
        .ok ⟨[orderRule], [.invalid (Text.Utf8.encode "rules/idle.json") .noIdentity], 0⟩ := by
  refine ⟨rfl, recordsOf_mixed, rfl, ?_⟩
  obtain ⟨⟨rules, skipped, inactive⟩, loaded, sorts⟩ := recordsOf_mixed.exists_load sound_mixed
  obtain rfl : rules = _ := sorts.rules
  obtain rfl : skipped = _ := sorts.skipped
  obtain rfl : inactive = _ := sorts.inactive
  rw [loaded, Except.ok.injEq, LoadReport.mk.injEq]
  decide +kernel

end RuleSource

end EventRelay
