import EventRelay.CommandLine.Run
import EventRelay.Proofs.Rule.Ambiguity
import EventRelay.Proofs.Stage.Invocation

/-!
# Which rules are at fault

A rule is the one for some event exactly when it is the first to carry some value: the event with
that value alone finds it. The rules that no event finds are thus those of which an ambiguity is
recorded for every identity. A stage can meet a chain that does not name it exactly when a rule that
some event finds has one, and never when the check shows no foreign rule: it prints a line for each
of these rules, and each of these lines begins alike.
-/

namespace EventRelay

/-! ## Rules that some event finds -/

namespace RuleIndex

variable {earlier later : List Rule} {rule : Rule}

/-- The position of a rule is found for an event when the rule claims it and no earlier one does. -/
theorem position?_eq_length_iff {event : Json} :
    (ofRules (earlier ++ rule :: later)).position? event = some earlier.length ↔
      rule.Claims event ∧ ∀ other ∈ earlier, ¬ other.Claims event := by
  rw [position?_ofRules, List.findIdx?_eq_some_iff_getElem]
  simp only [← Rule.claims_iff]
  constructor
  · rintro ⟨bound, claimed, before⟩
    refine ⟨by simpa using claimed, fun other inside => ?_⟩
    obtain ⟨place, small, rfl⟩ := List.mem_iff_getElem.mp inside
    simpa [List.getElem_append, small] using before place small
  · rintro ⟨claimed, before⟩
    refine ⟨by simp, by simpa using claimed, fun place small => ?_⟩
    simpa [List.getElem_append, small] using before _ (List.getElem_mem small)

/-- A rule that is found for an event is live. -/
theorem isLive_of_position? {event : Json}
    (found : (ofRules (earlier ++ rule :: later)).position? event = some earlier.length) :
    rule.IsLive earlier := by
  obtain ⟨⟨identity, value, present, filled, carried⟩, before⟩ := position?_eq_length_iff.mp found
  refine ⟨identity, value, carried, fun other inside same => ?_⟩
  exact before other inside ⟨identity, value, present, filled, same⟩

/-- A live rule is found for the event that has its value alone. -/
theorem exists_position?_of_isLive (filled : ∀ identity, rule.identity? identity ≠ some "")
    (live : rule.IsLive earlier) (later : List Rule) :
    ∃ event, (ofRules (earlier ++ rule :: later)).position? event = some earlier.length := by
  obtain ⟨identity, value, carried, first⟩ := live
  have nonempty : value ≠ "" := by
    rintro rfl
    exact filled identity carried
  refine ⟨identity.event value, position?_eq_length_iff.mpr ?_⟩
  refine ⟨(Rule.claims_event_iff nonempty).mpr carried, fun other inside claimed => ?_⟩
  exact first other inside ((Rule.claims_event_iff nonempty).mp claimed)

/-- The rule at the position that is found for an event is the rule for the event. -/
theorem find?_of_position? {event : Json}
    (found : (ofRules (earlier ++ rule :: later)).position? event = some earlier.length) :
    (ofRules (earlier ++ rule :: later)).find? event = some rule := by
  rw [position?] at found
  rw [find?, found]
  simp

/-- The rule for an event stands at the position that is found for it. -/
theorem exists_position?_of_find? {rules : List Rule} {event : Json}
    (found : (ofRules rules).find? event = some rule) :
    ∃ earlier later, rules = earlier ++ rule :: later ∧
      (ofRules rules).position? event = some earlier.length := by
  rw [find?_ofRules, List.find?_eq_some_iff_append] at found
  obtain ⟨claimed, earlier, later, rfl, before⟩ := found
  refine ⟨earlier, later, rfl, position?_eq_length_iff.mpr ⟨Rule.claims_iff.mp claimed, ?_⟩⟩
  intro other inside
  simpa [← Rule.claims_iff] using before other inside

end RuleIndex

/-! ## Chains that do not name a stage -/

/-- A plan is at fault when the rule has a chain that does not name the stage. -/
theorem plan_eq_error_iff {rule : Option Rule} {stage : String} {problem : IntegrityError} :
    plan rule stage = .error problem ↔
      ∃ chain, rule.bind Rule.chain = some chain ∧ stage ∉ chain.stages ∧
        problem = ⟨stage, chain.text⟩ := by
  unfold plan
  cases rule.bind Rule.chain with
  | none => simp
  | some chain =>
    have named : chain.successor stage = .missing ↔ stage ∉ chain.stages :=
      Chain.successorIn_eq_missing_iff
    dsimp only
    split <;> rename_i follows <;> simp [← named, follows, eq_comm]

/-- A stage is at fault for some event when a live rule has a chain that does not name it. -/
theorem exists_plan_eq_error_iff {rules : List Rule}
    (filled : ∀ rule ∈ rules, ∀ identity, rule.identity? identity ≠ some "") {stage : String} :
    (∃ event problem, plan ((RuleIndex.ofRules rules).find? event) stage = .error problem) ↔
      ∃ earlier rule later chain, rules = earlier ++ rule :: later ∧ rule.IsLive earlier ∧
        rule.chain = some chain ∧ stage ∉ chain.stages := by
  constructor
  · rintro ⟨event, problem, fault⟩
    obtain ⟨chain, chained, missing, -⟩ := plan_eq_error_iff.mp fault
    obtain ⟨rule, found, held⟩ := Option.bind_eq_some_iff.mp chained
    obtain ⟨earlier, later, rfl, position⟩ := RuleIndex.exists_position?_of_find? found
    exact ⟨earlier, rule, later, chain, rfl, RuleIndex.isLive_of_position? position, held, missing⟩
  · rintro ⟨earlier, rule, later, chain, rfl, live, held, missing⟩
    obtain ⟨event, position⟩ :=
      RuleIndex.exists_position?_of_isLive (filled rule (by simp)) live later
    refine ⟨event, ⟨stage, chain.text⟩, plan_eq_error_iff.mpr ⟨chain, ?_, missing, rfl⟩⟩
    rw [RuleIndex.find?_of_position? position, Option.bind_some, held]

/-! ## What the check prints -/

namespace CommandLine

variable {stage : String} {rules : List Rule} {files : FileTree} {settings : Settings}
  {report : LoadReport} {endpoint : Endpoint ConfiguredStore ConfiguredProducer}

/-- The check prints a line for a rule exactly when the rule has a chain that does not name the
stage. -/
theorem foreignLine_eq_empty_iff {rule : Rule} :
    foreignLine stage rule = "" ↔ ∀ chain, rule.chain = some chain → stage ∈ chain.stages := by
  unfold foreignLine
  cases rule.chain with
  | none => simp
  | some chain =>
    by_cases named : stage ∈ chain.stages
    · simp [Chain.contains, named]
    · simp [Chain.contains, named, ← String.toList_inj]

/-- No lines are printed for rules exactly when none is printed for any of them. -/
theorem foreignLines_eq_empty_iff :
    foreignLines stage (.ofRules rules) = "" ↔ ∀ rule ∈ rules, foreignLine stage rule = "" := by
  rw [foreignLines, RuleIndex.rules_ofRules, ← String.toList_eq_nil_iff, String.toList_join,
    List.flatMap_map, List.flatMap_eq_nil_iff]
  simp only [String.toList_eq_nil_iff]

/-- What the line on a rule begins with. -/
def foreignMark : String :=
  "  foreign   "

theorem foreignMark_prefix_of_ne_empty {rule : Rule} (printed : foreignLine stage rule ≠ "") :
    foreignMark.toList <+: (foreignLine stage rule).toList := by
  unfold foreignLine at printed ⊢
  cases held : rule.chain with
  | none => simp [held] at printed
  | some chain =>
    rw [held] at printed
    dsimp only at printed ⊢
    split at printed
    · exact absurd rfl printed
    · rename_i unnamed
      simp only [if_neg unnamed, String.append_assoc]
      rw [String.toList_append]
      exact List.prefix_append _ _

/-- Lines of which the first one begins in some way begin in that way, empty ones aside. -/
theorem prefix_join {mark : List Char} {lines : List String}
    (begins : ∀ line ∈ lines, line ≠ "" → mark <+: line.toList) (filled : String.join lines ≠ "") :
    mark <+: (String.join lines).toList := by
  induction lines with
  | nil => exact absurd rfl filled
  | cons line rest inductionHypothesis =>
    rw [List.forall_mem_cons] at begins
    rw [String.join_cons] at filled ⊢
    by_cases empty : line = ""
    · rw [empty, String.empty_append] at filled ⊢
      exact inductionHypothesis begins.2 filled
    · rw [String.toList_append]
      exact (begins.1 empty).trans (List.prefix_append _ _)

/-- A text that ends where a line does. -/
def EndsLine (text : String) : Prop :=
  ['\n'] <:+ text.toList

theorem endsLine_append_newline (text : String) : EndsLine (text ++ "\n") := by
  rw [EndsLine, String.toList_append]
  exact List.suffix_append _ _

/-- Whole lines behind whole lines. -/
theorem EndsLine.append_join {text : String} (ends : EndsLine text) {lines : List String}
    (each : ∀ line ∈ lines, EndsLine line) : EndsLine (text ++ String.join lines) := by
  induction lines generalizing text with
  | nil => rwa [String.join_nil, String.append_empty]
  | cons line rest inductionHypothesis =>
    rw [List.forall_mem_cons] at each
    rw [String.join_cons, ← String.append_assoc]
    refine inductionHypothesis ?_ each.2
    rw [EndsLine, String.toList_append]
    exact each.1.trans (List.suffix_append _ _)

theorem endsLine_overview (settings : Settings) (report : LoadReport) (index : RuleIndex) :
    EndsLine (overview settings report index) := by
  have head : ∀ text : String, EndsLine (text ++ " skipped\n") := by
    intro text
    rw [EndsLine, String.toList_append]
    exact (by decide : ['\n'] <:+ " skipped\n".toList).trans (List.suffix_append _ _)
  refine ((head _).append_join ?_).append_join ?_
  · rw [List.forall_mem_map]
    exact fun problem _ => endsLine_append_newline _
  · rw [List.forall_mem_map]
    exact fun ambiguity _ => endsLine_append_newline _

/-- Where rules are foreign, a line of the summary says so. -/
theorem foreignMark_infix_summary
    (foreign : foreignLines settings.stage.name (.ofRules report.rules) ≠ "") :
    '\n' :: foreignMark.toList <:+: (summary settings report).toList := by
  obtain ⟨front, ends⟩ := endsLine_overview settings report (.ofRules report.rules)
  obtain ⟨rest, begins⟩ : foreignMark.toList <+:
      (foreignLines settings.stage.name (.ofRules report.rules)).toList := by
    refine prefix_join ?_ foreign
    rw [List.forall_mem_map]
    exact fun rule _ => foreignMark_prefix_of_ne_empty
  refine ⟨front, rest, ?_⟩
  rw [summary, String.toList_append, ← ends, ← begins]
  simp

/-- The check prints the summary of what has been loaded. -/
theorem exists_check_eq
    (loaded : (RuleSource.directory settings.routing.directory).load files = .ok report) :
    ∃ code problem, check files settings = .exited code (summary settings report) problem := by
  rw [check, loaded]
  dsimp only
  split
  · exact ⟨_, _, rfl⟩
  · exact ⟨_, _, rfl⟩

/-- A stage that is served publishes the rules of a load, as the check sees them. -/
theorem exists_load_of_serve (serving : serve files settings = .serving endpoint) :
    ∃ report, (RuleSource.directory settings.routing.directory).load files = .ok report ∧
      endpoint.stage.name = settings.stage.name ∧
      endpoint.stage.book.published = RuleIndex.ofRules report.rules := by
  unfold serve at serving
  split at serving
  · rw [RuleBook.load, RuleBook.reload, RuleBook.ofSource] at serving
    dsimp only at serving
    cases loaded : (RuleSource.directory settings.routing.directory).load files with
    | error problem => simp [loaded, RuleBook.publish, failed] at serving
    | ok report =>
      rw [loaded] at serving
      obtain rfl := Outcome.serving.inj serving
      exact ⟨report, rfl, rfl, rfl⟩
  · simp [failed] at serving

end CommandLine

namespace Stage

open Text (Bytes)

variable {Store π : Type} [TableStore Store] [Producer π]

/-- A route is at fault only where its plan is. -/
theorem plan_of_route {current source : String} {producer : Option π} {limit : Duration}
    {rule : Option Rule} {body : Bytes} {problem : IntegrityError}
    (fault : (route current producer limit rule body).1 = .failed source (.integrity problem)) :
    plan rule current = .error problem := by
  unfold route at fault
  dsimp only at fault
  split at fault
  · rename_i cause planned
    simp only [RouteOutcome.failed.injEq, RouteError.integrity.injEq] at fault
    rw [planned, fault.2]
  · split at fault <;> simp at fault
  · split at fault <;> simp at fault

/-- A stage reports a fault only of a rule for some event. -/
theorem exists_plan_of_invoke {stage : Stage Store π} {files : FileTree} {payload : Bytes}
    {destination : Destination} {masked : Bool} {write : Except WriteError Receipt}
    {source : String} {problem : IntegrityError}
    (reported : (stage.invoke files payload).1 =
      .ok (.processed destination masked write (.failed source (.integrity problem)))) :
    ∃ event, plan (stage.book.find? event) stage.name = .error problem := by
  cases arrives : eventOf payload with
  | error cause =>
    rw [(passes_of_refused stage files arrives).1] at reported
    simp at reported
  | ok event =>
    cases control : stage.isControl event with
    | true =>
      rw [report_of_control stage files arrives control] at reported
      simp at reported
    | false =>
      rw [(processes_of_ordinary stage files arrives control).report] at reported
      simp only [Except.ok.injEq, Report.processed.injEq] at reported
      exact ⟨event, plan_of_route reported.2.2.2⟩

/-- A stage whose published rules are none of them foreign reports no fault. -/
theorem invoke_ne_fault {rules : List Rule} {stage : Stage Store π}
    (clean : ∀ rule ∈ rules, CommandLine.foreignLine stage.name rule = "")
    (published : stage.book.published = RuleIndex.ofRules rules) (files : FileTree)
    (payload : Bytes) (destination : Destination) (masked : Bool)
    (write : Except WriteError Receipt) (source : String) (problem : IntegrityError) :
    (stage.invoke files payload).1 ≠
      .ok (.processed destination masked write (.failed source (.integrity problem))) := by
  intro reported
  obtain ⟨event, fault⟩ := exists_plan_of_invoke reported
  rw [RuleBook.find?, published, RuleIndex.find?_ofRules] at fault
  obtain ⟨chain, chained, missing, -⟩ := plan_eq_error_iff.mp fault
  obtain ⟨rule, found, held⟩ := Option.bind_eq_some_iff.mp chained
  have named := CommandLine.foreignLine_eq_empty_iff.mp
    (clean rule (List.mem_of_find?_eq_some found))
  exact missing (named chain held)

/-- A rule is found for some event exactly when it is the first to carry one of its values, which is
when fewer ambiguities than it has identities are recorded as it is added. (No way to put a rule
together leaves an empty value in it.) A stage can be at fault exactly when one of these rules has a
chain that does not name it. What the check prints ends with lines on the rules that are foreign to
the stage. Where no line that it prints is one of these, or no rule that it loads has one, a stage
with these rules, as it is served from the same settings, reports no fault for any payload. -/
theorem faults_of_live_rules (rules : List Rule)
    (filled : ∀ rule ∈ rules, ∀ identity, rule.identity? identity ≠ some "") :
    (∀ earlier rule later, rules = earlier ++ rule :: later →
      ((∃ event, (RuleIndex.ofRules rules).position? event = some earlier.length ∧
          (RuleIndex.ofRules rules).find? event = some rule) ↔ rule.IsLive earlier) ∧
      (rule.IsLive earlier ↔
        ((RuleIndex.ofRules earlier).push rule).ambiguities.size <
          (RuleIndex.ofRules earlier).ambiguities.size + rule.identities.length)) ∧
    (∀ stage, (∃ event problem,
        plan ((RuleIndex.ofRules rules).find? event) stage = .error problem) ↔
      ∃ earlier rule later chain, rules = earlier ++ rule :: later ∧ rule.IsLive earlier ∧
        rule.chain = some chain ∧ stage ∉ chain.stages) ∧
    (∀ stage : Stage Store π,
      (∀ rule ∈ rules, CommandLine.foreignLine stage.name rule = "") →
      stage.book.published = RuleIndex.ofRules rules →
      ∀ files payload destination masked write source problem,
        (stage.invoke files payload).1 ≠
          .ok (.processed destination masked write (.failed source (.integrity problem)))) ∧
    (∀ checked settings report endpoint,
      (RuleSource.directory settings.routing.directory).load checked = .ok report →
      (∀ rule ∈ report.rules, CommandLine.foreignLine settings.stage.name rule = "") →
      CommandLine.serve checked settings = .serving endpoint →
      ∀ files payload destination masked write source problem,
        (endpoint.stage.invoke files payload).1 ≠
          .ok (.processed destination masked write (.failed source (.integrity problem)))) ∧
    (∀ checked settings report,
      (RuleSource.directory settings.routing.directory).load checked = .ok report →
      let index := RuleIndex.ofRules report.rules
      let foreign := CommandLine.foreignLines settings.stage.name index
      (∃ code problem, CommandLine.check checked settings =
        .exited code (CommandLine.overview settings report index ++ foreign) problem) ∧
      (foreign = "" ↔ ∀ rule ∈ report.rules, ∀ chain, rule.chain = some chain →
        settings.stage.name ∈ chain.stages)) ∧
    (∀ checked settings code output failure endpoint,
      CommandLine.check checked settings = .exited code output failure →
      ¬ '\n' :: CommandLine.foreignMark.toList <:+: output.toList →
      CommandLine.serve checked settings = .serving endpoint →
      ∀ files payload destination masked write source problem,
        (endpoint.stage.invoke files payload).1 ≠
          .ok (.processed destination masked write (.failed source (.integrity problem)))) := by
  refine ⟨fun earlier rule later split => ?_, fun stage => exists_plan_eq_error_iff filled,
    fun stage clean published => invoke_ne_fault clean published, ?byRule, ?printed, ?byOutput⟩
  · subst split
    refine ⟨⟨?_, fun live => ?_⟩, RuleIndex.size_ambiguities_push_lt_iff.symm⟩
    · rintro ⟨event, position, -⟩
      exact RuleIndex.isLive_of_position? position
    · obtain ⟨event, position⟩ :=
        RuleIndex.exists_position?_of_isLive (filled rule (by simp)) live later
      exact ⟨event, position, RuleIndex.find?_of_position? position⟩
  case byRule =>
    intro checked settings report endpoint loaded clean serving
    obtain ⟨found, alsoLoaded, name, published⟩ := CommandLine.exists_load_of_serve serving
    obtain rfl := Except.ok.inj (loaded.symm.trans alsoLoaded)
    exact invoke_ne_fault (name ▸ clean) published
  case printed =>
    intro checked settings report loaded index foreign
    refine ⟨CommandLine.exists_check_eq loaded, ?_⟩
    rw [CommandLine.foreignLines_eq_empty_iff]
    simp only [CommandLine.foreignLine_eq_empty_iff]
  case byOutput =>
    intro checked settings code output failure endpoint checks noForeign serving
    obtain ⟨report, loaded, name, published⟩ := CommandLine.exists_load_of_serve serving
    obtain ⟨_, _, prints⟩ := CommandLine.exists_check_eq loaded
    obtain ⟨-, rfl, -⟩ := CommandLine.Outcome.exited.inj (prints.symm.trans checks)
    have clean := not_imp_comm.mp CommandLine.foreignMark_infix_summary noForeign
    rw [CommandLine.foreignLines_eq_empty_iff] at clean
    exact invoke_ne_fault (name ▸ clean) published

/-- The first of two rules for one stream. -/
def leader : Rule :=
  ((Rule.named "leader").withIdentity .stream "s1").withChain ⟨["bronze"]⟩

/-- The second of two rules for one stream, which no event finds. -/
def rival : Rule :=
  ((Rule.named "rival").withIdentity .stream "s1").withChain ⟨["silver"]⟩

theorem faults_of_rival :
    (∀ rule ∈ [leader, rival], ∀ identity, rule.identity? identity ≠ some "") ∧
      (¬ ∃ event, (RuleIndex.ofRules [leader, rival]).position? event = some 1 ∧
        (RuleIndex.ofRules [leader, rival]).find? event = some rival) ∧
      (¬ ∃ event problem,
        plan ((RuleIndex.ofRules [leader, rival]).find? event) "bronze" = .error problem) ∧
      ∃ event problem,
        plan ((RuleIndex.ofRules [leader, rival]).find? event) "silver" = .error problem := by
  have filled : ∀ rule ∈ [leader, rival], ∀ identity, rule.identity? identity ≠ some "" := by
    intro rule inside identity
    revert rule
    cases identity <;> decide
  have dead : ¬ rival.IsLive [leader] := by
    rintro ⟨identity, value, carried, first⟩
    have same : leader.identity? identity = rival.identity? identity := by
      cases identity <;> rfl
    exact first leader (by simp) (same.trans carried)
  obtain ⟨found, faults, -⟩ :=
    @faults_of_live_rules MemoryStore MemoryProducer _ _ [leader, rival] filled
  refine ⟨filled, fun event => dead ((found [leader] rival [] rfl).1.mp event), ?_, ?_⟩
  · intro fault
    obtain ⟨earlier, rule, later, chain, split, live, chained, missing⟩ :=
      (faults "bronze").mp fault
    match earlier, split with
    | [], split =>
      obtain ⟨rfl, -⟩ := List.cons.inj split
      exact missing (by rw [← Option.some.inj chained]; decide)
    | [_], split =>
      obtain ⟨rfl, rest⟩ := List.cons.inj split
      obtain ⟨rfl, -⟩ := List.cons.inj rest
      exact dead live
    | _ :: _ :: more, split => simp at split
  · exact (faults "silver").mpr
      ⟨[], leader, [rival], ⟨["bronze"]⟩, rfl, ⟨.stream, "s1", by decide, by simp⟩, by decide,
        by decide⟩

end Stage

end EventRelay
