import EventRelay.Proofs.Chain
import EventRelay.Proofs.Rule.FirstMatch
import EventRelay.Rule.Book

/-!
# Published rules are well formed

A rule is put together step by step or read from a record. Both ways leave no empty value and no
empty chain in it, and a chain comes from names or from a text, so it is proper. A load keeps active
rules only and checks each of them for an identity. Reloads publish nothing but what a load has
kept.
-/

namespace EventRelay

/-! ## How rules come about -/

/-- A chain that is empty, made of names or read from a text. -/
inductive Chain.Built : Chain → Prop
  | empty : Built ⟨[]⟩
  | ofNames {names : List String} {chain : Chain} (made : ofNames names = .ok chain) : Built chain
  | parse {text : String} {chain : Chain} (parsed : parse text = .ok chain) : Built chain

/-- A rule that is put together from a name. -/
inductive Rule.Built : Rule → Prop
  | named (source : String) : Built (named source)
  | withIdentity {rule : Rule} (built : Built rule) (identity : Identity) (value : String) :
      Built (rule.withIdentity identity value)
  | withChain {rule : Rule} {chain : Chain} (built : Built rule) (chained : chain.Built) :
      Built (rule.withChain chain)
  | withActive {rule : Rule} (built : Built rule) (active : Bool) : Built (rule.withActive active)
  | withMessageType {rule : Rule} (built : Built rule) (messageType : String) :
      Built (rule.withMessageType messageType)
  | withFolderName {rule : Rule} (built : Built rule) (folderName : String) :
      Built (rule.withFolderName folderName)

/-- A source whose rules at hand are put together; a directory may hold anything. -/
def RuleSource.Built : RuleSource → Prop
  | .directory _ => True
  | .memory rules => ∀ rule ∈ rules, rule.Built

/-- A book that any reloads lead to, from whatever files there are at each of them; the rules at
hand may be replaced by others in between. -/
inductive RuleBook.Reached : RuleBook → Prop
  | fresh {source : RuleSource} (built : source.Built) : Reached (ofSource source)
  | reload {book : RuleBook} (reached : Reached book) (files : FileTree) :
      Reached (book.reload files).2
  | supply {book : RuleBook} (reached : Reached book) {rules : List Rule}
      (built : ∀ rule ∈ rules, rule.Built) : Reached (book.supply rules)

/-! ## What is well formed -/

theorem Chain.Built.proper {chain : Chain} (built : chain.Built) : chain.Proper := by
  cases built with
  | empty => exact ⟨by simp, by simp, List.nodup_nil⟩
  | ofNames made => exact (proper_of_ofNames made).2
  | parse parsed => exact (proper_of_parse parsed).1

/-- A rule without empty values, whose chain, if it has one, has stages and is proper. -/
structure Rule.Sound (rule : Rule) : Prop where
  filled : ∀ identity, rule.identity? identity ≠ some ""
  chained : ∀ chain, rule.chain = some chain → chain.stages ≠ [] ∧ chain.Proper

/-- A sound rule that is active and has an identity if it has a chain. -/
structure Rule.WellFormed (rule : Rule) : Prop extends rule.Sound where
  active : rule.active = true
  identified : rule.chain.isSome → ∃ identity value, rule.identity? identity = some value

/-- No name in the chain of a rule holds a comma. -/
def Rule.CommaFree (rule : Rule) : Prop :=
  ∀ chain, rule.chain = some chain → ∀ stage ∈ chain.stages, ',' ∉ stage.toList

namespace Rule

/-- An empty text is not present. -/
theorem present?_ne_empty (value : String) : present? value ≠ some "" := by
  unfold present?
  split
  · simp
  · rename_i filled
    rw [ne_eq, Option.some.injEq]
    rintro rfl
    exact filled rfl

/-- Giving a rule the value of an identity changes this identity only. -/
theorem identity?_withIdentity (rule : Rule) (identity other : Identity) (value : String) :
    (rule.withIdentity identity value).identity? other =
      if other = identity then present? value else rule.identity? other := by
  cases identity <;> cases other <;> rfl

theorem chain_withIdentity (rule : Rule) (identity : Identity) (value : String) :
    (rule.withIdentity identity value).chain = rule.chain := by
  cases identity <;> rfl

theorem Built.sound {rule : Rule} (built : rule.Built) : rule.Sound := by
  induction built with
  | named source =>
    refine ⟨fun identity => ?_, fun chain held => absurd held (by simp [Rule.named])⟩
    cases identity <;> simp [Rule.named, identity?]
  | @withIdentity rule built identity value sound =>
    refine ⟨fun other => ?_, ?_⟩
    · rw [identity?_withIdentity]
      split
      · exact present?_ne_empty value
      · exact sound.filled other
    · rw [chain_withIdentity]
      exact sound.chained
  | withChain built chained sound =>
    refine ⟨sound.filled, fun chain held => ?_⟩
    simp only [Rule.withChain] at held
    split at held
    · simp at held
    · rename_i stages
      obtain rfl := Option.some.inj held
      exact ⟨by simpa using stages, chained.proper⟩
  | withActive built active sound => exact ⟨sound.filled, sound.chained⟩
  | withMessageType built messageType sound => exact ⟨sound.filled, sound.chained⟩
  | withFolderName built folderName sound => exact ⟨sound.filled, sound.chained⟩

/-- A valid rule has an identity if it has a chain. -/
theorem identified_of_validate {rule : Rule} (valid : rule.validate = .ok ())
    (chained : rule.chain.isSome) : ∃ identity value, rule.identity? identity = some value := by
  unfold validate at valid
  split at valid
  · simp at valid
  · rename_i fine
    rw [chained, Bool.true_and, Bool.not_eq_true', Bool.not_eq_false, hasIdentity,
      List.any_eq_true] at fine
    obtain ⟨identity, -, present⟩ := fine
    exact ⟨identity, Option.isSome_iff_exists.mp present⟩

end Rule

/-! ## Rules of records -/

/-- The text of a field is not empty. -/
theorem RuleRecord.text?_ne_empty (record : RuleRecord) (field : RecordField) :
    record.text? field ≠ some "" := by
  unfold text?
  cases record.get? field with
  | none => simp
  | some value =>
    rw [Option.bind_some]
    unfold FieldValue.text?
    split
    · exact Rule.present?_ne_empty _
    · exact Rule.present?_ne_empty _
    · simp

/-- The chain of a record, if it has one with stages. -/
def RuleRecord.chain? (record : RuleRecord) : Except RuleError (Option Chain) :=
  match record.text? .stages with
  | none => .ok none
  | some text =>
    (Chain.parse text).map fun chain => if chain.stages.isEmpty then none else some chain

/-- The rule that the fields of a record describe, with a chain. -/
def RuleRecord.ruleOf (record : RuleRecord) (source : String) (chain : Option Chain) : Rule where
  source := source
  project := record.text? .project
  streamAlias := record.text? .streamAlias
  stream := record.text? .stream
  chain := chain
  active := (record.flag? .active).getD true
  messageType := record.text? .messageType
  folderName := record.text? .folderName

/-- The rule of a record comes of its chain first and of its check then. -/
theorem RuleRecord.toRule_eq (record : RuleRecord) (source : String) :
    record.toRule source = record.chain?.bind fun chain =>
      (record.ruleOf source chain).validate.bind fun _ => .ok (record.ruleOf source chain) := by
  unfold toRule chain?
  cases record.text? .stages with
  | none => rfl
  | some text =>
    dsimp only
    cases Chain.parse text <;> rfl

/-- A record gives a rule when its chain can be read and the rule is valid. -/
theorem RuleRecord.toRule_eq_ok_iff {record : RuleRecord} {source : String} {rule : Rule} :
    record.toRule source = .ok rule ↔
      ∃ chain, record.chain? = .ok chain ∧ rule = record.ruleOf source chain ∧
        rule.validate = .ok () := by
  rw [toRule_eq]
  cases record.chain? with
  | error problem => simp [Except.bind]
  | ok chain =>
    simp only [Except.bind]
    cases valid : (record.ruleOf source chain).validate with
    | error problem =>
      simp only [reduceCtorEq, Except.ok.injEq, false_iff, not_exists, not_and]
      rintro _ rfl rfl
      simp [valid]
    | ok =>
      constructor
      · intro same
        obtain rfl := Except.ok.inj same
        exact ⟨chain, rfl, rfl, valid⟩
      · rintro ⟨_, same, rfl, -⟩
        rw [Except.ok.inj same]

/-- The rule of a record is sound and valid, and no name in its chain holds a comma. -/
theorem RuleRecord.sound_of_toRule {record : RuleRecord} {source : String} {rule : Rule}
    (read : record.toRule source = .ok rule) :
    rule.Sound ∧ rule.validate = .ok () ∧ rule.CommaFree := by
  obtain ⟨held, chained, rfl, valid⟩ := toRule_eq_ok_iff.mp read
  have filled : ∀ identity, (record.ruleOf source held).identity? identity ≠ some "" := by
    intro identity
    cases identity <;> exact record.text?_ne_empty _
  have parsed : ∀ chain, held = some chain →
      chain.stages ≠ [] ∧ ∃ text, Chain.parse text = .ok chain := by
    rintro chain rfl
    unfold chain? at chained
    split at chained
    · simp at chained
    · rename_i text _
      cases parsed : Chain.parse text with
      | error problem => simp [parsed, Except.map] at chained
      | ok other =>
        rw [parsed, Except.map, Except.ok.injEq] at chained
        split at chained
        · simp at chained
        · rename_i stages
          obtain rfl := Option.some.inj chained
          exact ⟨by simpa using stages, text, parsed⟩
  refine ⟨⟨filled, fun chain same => ?_⟩, valid, fun chain same => ?_⟩
  · obtain ⟨stages, text, parses⟩ := parsed chain same
    exact ⟨stages, (Chain.proper_of_parse parses).1⟩
  · obtain ⟨-, text, parses⟩ := parsed chain same
    exact (Chain.proper_of_parse parses).2

/-! ## Rules of loads -/

/-- The rule that a load keeps of an outcome, if it does. -/
def LoadReport.kept? : Except LoadError Rule → Option Rule
  | .error _ => none
  | .ok rule => if rule.active then some rule else none

/-- The error that a load reports for an outcome, if it does. -/
def LoadReport.refused? : Except LoadError Rule → Option LoadError
  | .error problem => some problem
  | .ok _ => none

/-- Whether a load leaves the rule of an outcome out. -/
def LoadReport.isInactive : Except LoadError Rule → Bool
  | .error _ => false
  | .ok rule => !rule.active

/-- A load keeps the rules of its outcomes and reports their errors, in order, and counts what it
leaves out. -/
theorem LoadReport.foldl_note (outcomes : List (Except LoadError Rule)) (report : LoadReport) :
    outcomes.foldl note report =
      ⟨report.rules ++ outcomes.filterMap kept?, report.skipped ++ outcomes.filterMap refused?,
        report.inactive + outcomes.countP isInactive⟩ := by
  induction outcomes generalizing report with
  | nil => simp
  | cons outcome rest inductionHypothesis =>
    rw [List.foldl_cons, inductionHypothesis, List.filterMap_cons, List.filterMap_cons,
      List.countP_cons]
    cases outcome with
    | error problem => simp [note, kept?, refused?, isInactive]
    | ok rule =>
      cases active : rule.active <;> simp [note, kept?, refused?, isInactive, active]
      omega

/-- A load keeps the rules of its outcomes, in order. -/
theorem LoadReport.rules_foldl_note {Item : Type} (outcome : Item → Except LoadError Rule)
    (items : List Item) (report : LoadReport) :
    (items.foldl (fun report item => report.note (outcome item)) report).rules =
      report.rules ++ items.filterMap fun item => kept? (outcome item) := by
  rw [← List.foldl_map, foldl_note, List.filterMap_map]
  rfl

/-- A rule that a load keeps is the active one of some outcome. -/
theorem LoadReport.mem_rules_foldl_note {Item : Type} {outcome : Item → Except LoadError Rule}
    {items : List Item} {rule : Rule}
    (kept : rule ∈
      (items.foldl (fun (report : LoadReport) item => report.note (outcome item)) empty).rules) :
    rule.active = true ∧ ∃ item ∈ items, outcome item = .ok rule := by
  rw [rules_foldl_note, List.mem_append, List.mem_filterMap] at kept
  rcases kept with nothing | ⟨item, inside, kept⟩
  · simp [empty] at nothing
  · cases read : outcome item with
    | error problem => simp [read, kept?] at kept
    | ok other =>
      rw [read, kept?] at kept
      split at kept
      · rename_i active
        obtain rfl := Option.some.inj kept
        exact ⟨active, item, inside, read⟩
      · simp at kept

/-- A record file is read, what it spells is made a record, and the record a rule. The first of
these steps that fails is reported with the path of the file. -/
theorem RuleSource.loadRecord_eq_steps (directory : FilePath) (file : FileEntry) :
    loadRecord directory file =
      match file.node.read with
      | .error cause => .error (.unreadable (directory.withName file.name) cause)
      | .ok content =>
        match RuleRecord.parse content with
        | .error cause => .error (.malformed (directory.withName file.name) cause)
        | .ok record =>
          (record.toRule (Text.Utf8.lossy file.name)).mapError
            (.invalid (directory.withName file.name)) := by
  unfold loadRecord
  cases file.node.read with
  | error cause => rfl
  | ok content =>
    dsimp only [Except.mapError, bind, Except.bind]
    cases RuleRecord.parse content <;> rfl

/-- The rule of a record file is that of the record which the file spells. -/
theorem RuleSource.exists_record_of_loadRecord {directory : FilePath} {file : FileEntry}
    {rule : Rule} (read : loadRecord directory file = .ok rule) :
    ∃ content record, file.node.read = .ok content ∧ RuleRecord.parse content = .ok record ∧
      record.toRule (Text.Utf8.lossy file.name) = .ok rule := by
  rw [loadRecord_eq_steps] at read
  split at read
  · simp at read
  · rename_i content stored
    split at read
    · simp at read
    · rename_i record parsed
      refine ⟨content, record, stored, parsed, ?_⟩
      cases given : record.toRule (Text.Utf8.lossy file.name) with
      | error problem => simp [given, Except.mapError] at read
      | ok other => rw [Except.ok.inj (given ▸ read : Except.ok other = _)]

/-- A rule at hand that a load keeps as active is that rule, and is valid. -/
theorem RuleSource.eq_and_valid_of_check {given rule : Rule} (checked : check given = .ok rule)
    (active : rule.active = true) : rule = given ∧ rule.validate = .ok () := by
  unfold check at checked
  split at checked
  · cases valid : given.validate with
    | error problem => simp [valid, Except.mapError, Except.map] at checked
    | ok =>
      obtain rfl : given = rule := by simpa [valid, Except.mapError, Except.map] using checked
      exact ⟨rfl, valid⟩
  · rename_i inactive
    obtain rfl := Except.ok.inj checked
    exact absurd active inactive

/-- A load keeps well-formed rules only, and from a directory only rules without a comma in a
name. -/
theorem RuleSource.wellFormed_of_load {source : RuleSource} (built : source.Built)
    {files : FileTree} {report : LoadReport} (loaded : source.load files = .ok report)
    {rule : Rule} (kept : rule ∈ report.rules) :
    rule.WellFormed ∧ ∀ path, source = .directory path → rule.CommaFree := by
  cases source with
  | directory path =>
    change loadDirectory files path = .ok report at loaded
    unfold loadDirectory at loaded
    extract_lets directory at loaded
    split at loaded
    · obtain rfl := Except.ok.inj loaded
      simp [LoadReport.empty] at kept
    · simp at loaded
    · obtain rfl := Except.ok.inj loaded
      obtain ⟨active, file, -, read⟩ := LoadReport.mem_rules_foldl_note kept
      obtain ⟨-, record, -, -, given⟩ := exists_record_of_loadRecord read
      obtain ⟨sound, valid, commaFree⟩ := RuleRecord.sound_of_toRule given
      exact ⟨⟨sound, active, Rule.identified_of_validate valid⟩, fun _ _ => commaFree⟩
  | memory rules =>
    obtain rfl := Except.ok.inj loaded
    obtain ⟨active, given, inside, checked⟩ := LoadReport.mem_rules_foldl_note kept
    obtain ⟨rfl, valid⟩ := eq_and_valid_of_check checked active
    have sound := (built rule inside).sound
    exact ⟨⟨sound, active, Rule.identified_of_validate valid⟩, fun _ other => by simp at other⟩

/-! ## Published rules -/

namespace RuleBook

/-- What holds of a book after any reloads. -/
structure Keeps (book : RuleBook) : Prop where
  source : book.source.Built
  wellFormed : ∀ rule ∈ book.published.rules.toList, rule.WellFormed
  commaFree : ∀ path, book.source = .directory path →
    ∀ rule ∈ book.published.rules.toList, rule.CommaFree

/-- A reload keeps what the load keeps, or changes nothing. -/
theorem Keeps.reload {book : RuleBook} (keeps : book.Keeps) (files : FileTree) :
    (book.reload files).2.Keeps := by
  unfold RuleBook.reload publish
  cases loaded : book.source.load files with
  | error problem => exact keeps
  | ok report =>
    refine ⟨keeps.source, fun rule inside => ?_, fun path same rule inside => ?_⟩
    all_goals
      simp only [RuleIndex.rules_ofRules] at inside
      have wellFormed := RuleSource.wellFormed_of_load keeps.source loaded inside
    · exact wellFormed.1
    · exact wellFormed.2 path same

/-- Other rules at hand change nothing about what is published. -/
theorem Keeps.supply {book : RuleBook} (keeps : book.Keeps) {rules : List Rule}
    (built : ∀ rule ∈ rules, rule.Built) : (book.supply rules).Keeps := by
  obtain ⟨source, published, generation⟩ := book
  cases source with
  | directory path => exact ⟨keeps.source, keeps.wellFormed, keeps.commaFree⟩
  | memory held => exact ⟨built, keeps.wellFormed, fun path other => by cases other⟩

theorem Reached.keeps {book : RuleBook} (reached : book.Reached) : book.Keeps := by
  induction reached with
  | fresh built =>
    have none : ∀ source, (ofSource source).published.rules.toList = [] := fun _ => rfl
    refine ⟨built, ?_, ?_⟩ <;> simp [none]
  | reload reached files keeps => exact keeps.reload files
  | supply reached built keeps => exact keeps.supply built

/-- Whatever files a directory holds and whatever rules are put together, after any reloads every
published rule is active, has no empty value, and has at least one identity and only trimmed,
nonblank and different names in its chain if it has one. No name in the chain of a rule from a
directory holds a comma. -/
theorem published_wellFormed {book : RuleBook} (reached : book.Reached) {rule : Rule}
    (inside : rule ∈ book.published.rules.toList) :
    rule.WellFormed ∧ ∀ path, book.source = .directory path → rule.CommaFree := by
  obtain ⟨-, wellFormed, commaFree⟩ := reached.keeps
  exact ⟨wellFormed rule inside, fun path same => commaFree path same rule inside⟩

/-- A directory with the record of one rule. -/
def clickFiles : FileTree where
  entries :=
    [(["rules"], .directory),
      (["rules", "clicks.json"],
        .file (.ok (Text.Utf8.encode
          "\x7b\"stages\":\" bronze,silver\",\"stream_id\":\"s1\"\x7d")))]

/-- The rule of the record. -/
def clickRule : Rule :=
  ((Rule.named "clicks.json").withIdentity .stream "s1").withChain ⟨["bronze", "silver"]⟩

theorem wellFormed_clickRule :
    clickRule ∈ ((ofSource (.directory "rules")).reload clickFiles).2.published.rules.toList ∧
      clickRule.WellFormed ∧ clickRule.CommaFree := by
  have loaded : ((RuleSource.directory "rules").load clickFiles).map LoadReport.rules =
      .ok [clickRule] := by decide +kernel
  have inside : clickRule ∈
      ((ofSource (.directory "rules")).reload clickFiles).2.published.rules.toList := by
    change clickRule ∈
      (publish _ ((RuleSource.directory "rules").load clickFiles)).2.published.rules.toList
    cases outcome : (RuleSource.directory "rules").load clickFiles with
    | error problem => simp [outcome, Except.map] at loaded
    | ok report =>
      rw [outcome, Except.map, Except.ok.injEq] at loaded
      simp [publish, loaded]
  have start : (ofSource (.directory "rules")).Reached := .fresh trivial
  obtain ⟨wellFormed, commaFree⟩ := published_wellFormed (start.reload clickFiles) inside
  exact ⟨inside, wellFormed, commaFree "rules" rfl⟩

end RuleBook

end EventRelay
