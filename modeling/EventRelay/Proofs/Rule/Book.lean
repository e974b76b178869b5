import EventRelay.Proofs.Rule.FirstMatch
import EventRelay.Rule.Book

/-!
# A book publishes its last successful load

The outcomes of the loads so far, in order, determine a book: its generation is the number of those
that succeeded, and its published rules are those of the last one of them. Any outcome may follow
any other, so this holds of every source, and a load that fails leaves no trace.
-/

namespace EventRelay.RuleBook

/-- The reports of the loads that succeeded, in order. -/
def successes (loads : List (Except LoadError LoadReport)) : List LoadReport :=
  loads.filterMap Except.toOption

/-- The rules of the last load that succeeded; none before the first one. -/
def lastRules (loads : List (Except LoadError LoadReport)) : List Rule :=
  ((successes loads).getLast?.map LoadReport.rules).getD []

/-- A book that has published loads with the given outcomes, in order. The rules at hand may have
been replaced in between. -/
inductive Loaded : List (Except LoadError LoadReport) → RuleBook → Prop
  | fresh (source : RuleSource) : Loaded [] (ofSource source)
  | publish {loads : List (Except LoadError LoadReport)} {book : RuleBook}
      (loaded : Loaded loads book) (outcome : Except LoadError LoadReport) :
      Loaded (loads ++ [outcome]) (book.publish outcome).2
  | supply {loads : List (Except LoadError LoadReport)} {book : RuleBook}
      (loaded : Loaded loads book) (rules : List Rule) : Loaded loads (book.supply rules)

variable {loads : List (Except LoadError LoadReport)} {book : RuleBook}

/-- A reload publishes the outcome of loading the source. -/
theorem Loaded.reload (loaded : Loaded loads book) (files : FileTree) :
    Loaded (loads ++ [book.source.load files]) (book.reload files).2 :=
  loaded.publish (book.source.load files)

theorem successes_concat_error (loads : List (Except LoadError LoadReport)) (problem : LoadError) :
    successes (loads ++ [.error problem]) = successes loads := by
  simp [successes, Except.toOption]

theorem successes_concat_ok (loads : List (Except LoadError LoadReport)) (report : LoadReport) :
    successes (loads ++ [.ok report]) = successes loads ++ [report] := by
  simp [successes, Except.toOption]

/-- The loads that succeeded determine the generation and the published rules. -/
theorem Loaded.determined (loaded : Loaded loads book) :
    book.generation = (successes loads).length ∧
      book.published = RuleIndex.ofRules (lastRules loads) := by
  induction loaded with
  | fresh source => exact ⟨rfl, rfl⟩
  | supply loaded rules determined => exact determined
  | @publish loads book loaded outcome determined =>
    cases outcome with
    | error problem =>
      rw [lastRules, successes_concat_error]
      exact determined
    | ok report =>
      rw [lastRules, successes_concat_ok]
      refine ⟨?_, by simp [RuleBook.publish]⟩
      rw [List.length_append, ← determined.1]
      rfl

/-- Publishing an outcome once more changes no published rule. -/
theorem published_publish_twice (book : RuleBook) (outcome : Except LoadError LoadReport) :
    ((book.publish outcome).2.publish outcome).2.published =
      (book.publish outcome).2.published := by
  cases outcome <;> rfl

/-- After any loads the generation is the number of those that succeeded, and the published rules
are those of the last of them, through which a scan in load order finds the rule for an event. A
further reload publishes what the source gives: an error is answered and changes nothing, and a
report is answered with its counts and the next generation and determines the published rules.
Publishing the same once more changes no answer. -/
theorem publishes_last_success (loaded : Loaded loads book) :
    book.generation = (successes loads).length ∧
    book.published = RuleIndex.ofRules (lastRules loads) ∧
    (∀ event, book.find? event = (lastRules loads).find? fun rule => rule.claims event) ∧
    (∀ files, book.reload files = book.publish (book.source.load files)) ∧
    (∀ problem, book.publish (.error problem) = (.error problem, book)) ∧
    (∀ report, ∃ after,
      book.publish (.ok report) =
        (.ok
          { loaded := report.rules.length
            skipped := report.skipped.length
            inactive := report.inactive
            ambiguous := (RuleIndex.ofRules report.rules).ambiguities.size
            generation := (successes loads).length + 1 }, after) ∧
      after.generation = (successes loads).length + 1 ∧
      after.published = RuleIndex.ofRules report.rules) ∧
    (∀ outcome event, ((book.publish outcome).2.publish outcome).2.find? event =
      (book.publish outcome).2.find? event) ∧
    (∀ files event, ((book.reload files).2.reload files).2.find? event =
      (book.reload files).2.find? event) := by
  obtain ⟨generation, published⟩ := loaded.determined
  have again : ∀ outcome event, ((book.publish outcome).2.publish outcome).2.find? event =
      (book.publish outcome).2.find? event := by
    intro outcome event
    rw [find?, published_publish_twice, ← find?]
  have kept : ∀ outcome, (book.publish outcome).2.source = book.source := by
    intro outcome
    cases outcome <;> rfl
  refine ⟨generation, published, fun event => ?_, fun files => rfl, fun problem => rfl,
    fun report => ?_, again, fun files event => ?_⟩
  · rw [find?, published, RuleIndex.find?_ofRules]
  · refine ⟨(book.publish (.ok report)).2, ?_, ?_, rfl⟩
    · rw [← generation]
      simp [publish, RuleIndex.size]
    · rw [← generation]
      rfl
  · unfold reload
    rw [kept]
    exact again _ event

/-- A rule for a stream. -/
def streamRule (name stream : String) : Rule :=
  (Rule.named name).withIdentity .stream stream

/-- A load of one rule, beside a record that had to be skipped. -/
def streamReport : LoadReport :=
  ⟨[streamRule "a" "s1"], [.unreadable (Text.Utf8.encode "rules/b.json") .notFound], 2⟩

/-- A book after a load that succeeded and one that failed. -/
def keptBook : RuleBook :=
  (((ofSource (.memory [])).publish (.ok streamReport)).2.publish
    (.error (.unreadable (Text.Utf8.encode "rules") .notADirectory))).2

theorem loaded_keptBook :
    Loaded [.ok streamReport, .error (.unreadable (Text.Utf8.encode "rules") .notADirectory)]
      keptBook :=
  ((Loaded.fresh (.memory [])).publish (.ok streamReport)).publish _

theorem publishes_streamReport :
    Loaded [.ok streamReport, .error (.unreadable (Text.Utf8.encode "rules") .notADirectory)]
        keptBook ∧
      keptBook.generation = 1 ∧
      keptBook.published = RuleIndex.ofRules [streamRule "a" "s1"] ∧
      (keptBook.publish (.ok streamReport)).1.map ReloadSummary.generation = .ok 2 := by
  obtain ⟨generation, published, -, -, -, reports, -⟩ := publishes_last_success loaded_keptBook
  obtain ⟨after, answer, -⟩ := reports streamReport
  refine ⟨loaded_keptBook, generation, published, ?_⟩
  rw [answer]
  rfl

end EventRelay.RuleBook
