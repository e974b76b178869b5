import EventRelay.Proofs.Rule.Ambiguity

/-!
# The recorded ambiguities of a list of rules

Every rule is added after the ones before it in load order, and its ambiguities with them are
recorded at that point. So the ambiguities of a list stand in the order of positions and, at one
position, in the order of identities. A value counts as carried once for every rule that has it, but
only the first of these rules has no ambiguity for it.
-/

namespace EventRelay

namespace Rule

/-- The values that a rule carries, each with its identity. -/
def values (rule : Rule) : List (Identity × String) :=
  Identity.all.filterMap fun identity => (rule.identity? identity).map (identity, ·)

/-- The ambiguity of the rule at a position for an identity, if a rule before it carries the same
value. -/
def contested? (rules : List Rule) (position : Nat) (identity : Identity) : Option Ambiguity :=
  rules[position]?.bind fun rule => rule.ambiguity? (rules.take position) identity

variable {rule : Rule} {rules earlier : List Rule} {identity : Identity}

/-! ## Values that rules carry -/

@[simp] theorem mem_values {value : String} :
    (identity, value) ∈ rule.values ↔ rule.identity? identity = some value := by
  simp [values, identity.mem_all]

/-- A rule carries no value of an identity twice. -/
theorem nodup_values (rule : Rule) : rule.values.Nodup := by
  have all : Identity.all.Nodup := by decide
  refine all.filterMap fun first second pair left right => ?_
  obtain ⟨value, -, rfl⟩ := Option.map_eq_some_iff.mp left
  obtain ⟨other, -, same⟩ := Option.map_eq_some_iff.mp right
  exact (congrArg Prod.fst same).symm

/-- A claim is an ambiguity when a rule before carries the value. -/
theorem isSome_ambiguity?_iff :
    (rule.ambiguity? earlier identity).isSome ↔
      ∃ value, rule.identity? identity = some value ∧ (identity, value) ∈ earlier.flatMap values := by
  unfold ambiguity?
  cases rule.identity? identity with
  | none => simp
  | some value => simp [List.mem_flatMap]

/-- A rule has an ambiguity for each of its values that a rule before it carries. -/
theorem length_ambiguities (earlier : List Rule) (rule : Rule) :
    (rule.ambiguities earlier).length =
      rule.values.countP fun held => held ∈ earlier.flatMap values := by
  rw [ambiguities, values, List.length_filterMap_eq_countP, List.countP_filterMap]
  refine List.countP_congr fun identity _ => ?_
  rw [isSome_ambiguity?_iff]
  cases rule.identity? identity <;> simp

/-- A rule adds to the values of the rules before it those that none of them carries. -/
theorem card_values_append (earlier : List Rule) (rule : Rule) :
    ((earlier ++ [rule]).flatMap values).toFinset.card =
      (earlier.flatMap values).toFinset.card +
        rule.values.countP fun held => held ∉ earlier.flatMap values := by
  have fresh : rule.values.toFinset \ (earlier.flatMap values).toFinset =
      (rule.values.filter fun held => held ∉ earlier.flatMap values).toFinset := by
    ext held
    simp
  rw [List.flatMap_append, List.flatMap_singleton, List.toFinset_append, Finset.union_comm,
    ← Finset.card_sdiff_add_card, fresh,
    List.toFinset_card_of_nodup (rule.nodup_values.filter _), ← List.countP_eq_length_filter,
    Nat.add_comm]

/-! ## Positions and identities -/

/-- A rule after all others changes nothing at the positions before it. -/
theorem contested?_append_of_lt {position : Nat} (before : position < earlier.length) :
    contested? (earlier ++ [rule]) position identity = contested? earlier position identity := by
  rw [contested?, contested?, List.getElem?_append_left before,
    List.take_append_of_le_length before.le]

/-- The last rule is held against all others. -/
theorem contested?_length :
    contested? (earlier ++ [rule]) earlier.length identity = rule.ambiguity? earlier identity := by
  simp [contested?]

/-- The winner of an ambiguity is the first one of all rules that carries the value. -/
theorem exists_of_contested? {position : Nat} {entry : Ambiguity}
    (contested : contested? rules position identity = some entry) :
    ∃ winner, rules.find? (fun rule => rule.identity? entry.identity = some entry.value) =
      some winner ∧ winner.source = entry.winner := by
  obtain ⟨shadowed, -, recorded⟩ := Option.bind_eq_some_iff.mp contested
  obtain ⟨value, -, found⟩ := Option.bind_eq_some_iff.mp recorded
  obtain ⟨winner, first, rfl⟩ := Option.map_eq_some_iff.mp found
  refine ⟨winner, ?_, rfl⟩
  rw [← List.take_append_drop position rules, List.find?_append, first, Option.some_or]

end Rule

namespace RuleIndex

variable {rules : List Rule}

theorem ofRules_append_singleton (earlier : List Rule) (rule : Rule) :
    ofRules (earlier ++ [rule]) = (ofRules earlier).push rule := by
  simp [ofRules]

/-- The recorded ambiguities are those of every position and every identity. -/
theorem toList_ambiguities (rules : List Rule) :
    (ofRules rules).ambiguities.toList =
      (List.range rules.length).flatMap fun position =>
        Identity.all.filterMap (Rule.contested? rules position) := by
  induction rules using List.reverseRecOn with
  | nil => simp [ofRules, empty]
  | append_singleton earlier rule inductionHypothesis =>
    rw [ofRules_append_singleton, ambiguities_push, inductionHypothesis, List.length_append,
      List.length_singleton, List.range_succ, List.flatMap_append, List.flatMap_singleton]
    congr 1
    · refine List.flatMap_congr fun position inside => ?_
      refine List.filterMap_congr fun identity _ => ?_
      exact (Rule.contested?_append_of_lt (List.mem_range.mp inside)).symm
    · refine List.filterMap_congr fun identity _ => ?_
      exact Rule.contested?_length.symm

/-- With an ambiguity for each value that is carried again, and one distinct value for each that is
carried first, all carried values are counted. -/
theorem size_ambiguities_add_card (rules : List Rule) :
    (ofRules rules).ambiguities.size + (rules.flatMap Rule.values).toFinset.card =
      (rules.flatMap Rule.values).length := by
  induction rules using List.reverseRecOn with
  | nil => simp [ofRules, empty]
  | append_singleton earlier rule inductionHypothesis =>
    have recorded : (ofRules (earlier ++ [rule])).ambiguities.size =
        (ofRules earlier).ambiguities.size + (rule.ambiguities earlier).length := by
      rw [ofRules_append_singleton, ← Array.length_toList, ambiguities_push, List.length_append,
        Array.length_toList]
    have parts := rule.values.length_eq_countP_add_countP
      fun held => held ∈ earlier.flatMap Rule.values
    have total : ((earlier ++ [rule]).flatMap Rule.values).length =
        (earlier.flatMap Rule.values).length + rule.values.length := by
      simp
    rw [recorded, Rule.length_ambiguities, Rule.card_values_append, total]
    simp only [decide_eq_true_eq] at parts
    omega

/-- The event with one value is for the first rule that carries it. -/
theorem find?_event {identity : Identity} {value : String} (filled : value ≠ "") :
    (ofRules rules).find? (identity.event value) =
      rules.find? fun rule => rule.identity? identity = some value := by
  rw [find?_ofRules]
  congr 1
  funext rule
  rw [Bool.eq_iff_iff, Rule.claims_iff, Rule.claims_event_iff filled, decide_eq_true_eq]

/-- The recorded ambiguities are, in the order of positions and then of identities, one for each
rule and identity of which a rule before carries the value. Together with the distinct values they
are as many as the values carried in all. The event with the value of an ambiguity is for the first
rule that carries the value, and this is the rule recorded as the winner; rules that are put
together or read from records carry no empty value. -/
theorem ambiguities_exact (rules : List Rule) :
    (ofRules rules).ambiguities.toList =
      ((List.range rules.length).flatMap fun position =>
        Identity.all.filterMap (Rule.contested? rules position)) ∧
    (ofRules rules).ambiguities.size + (rules.flatMap Rule.values).toFinset.card =
      (rules.flatMap Rule.values).length ∧
    ((∀ rule ∈ rules, ∀ identity, rule.identity? identity ≠ some "") →
      ∀ entry ∈ (ofRules rules).ambiguities.toList, ∃ winner,
        rules.find? (fun rule => rule.identity? entry.identity = some entry.value) = some winner ∧
        winner.source = entry.winner ∧
        (ofRules rules).find? (entry.identity.event entry.value) = some winner) := by
  refine ⟨toList_ambiguities rules, size_ambiguities_add_card rules, fun filled entry inside => ?_⟩
  rw [toList_ambiguities] at inside
  obtain ⟨position, -, here⟩ := List.mem_flatMap.mp inside
  obtain ⟨identity, -, contested⟩ := List.mem_filterMap.mp here
  obtain ⟨winner, first, source⟩ := Rule.exists_of_contested? contested
  have nonempty : entry.value ≠ "" := by
    intro blank
    have carries : winner.identity? entry.identity = some entry.value := by
      simpa using List.find?_some first
    exact filled winner (List.mem_of_find?_eq_some first) _ (blank ▸ carries)
  exact ⟨winner, first, source, (find?_event nonempty).trans first⟩

/-- Four rules from two records: the second and the third carry what the first carries, and the
last one carries what only the third carries. -/
def contendingRules : List Rule :=
  [{ source := "a.json", project := some "p", stream := some "s" },
    { source := "a.json", project := some "p" },
    { source := "b.json", project := some "p", streamAlias := some "x", stream := some "s" },
    { source := "b.json", streamAlias := some "x" }]

theorem ambiguities_exact_of_contending :
    (∀ rule ∈ contendingRules, ∀ identity, rule.identity? identity ≠ some "") ∧
    (ofRules contendingRules).ambiguities.toList =
      [⟨.project, "p", "a.json", "a.json"⟩, ⟨.project, "p", "a.json", "b.json"⟩,
        ⟨.stream, "s", "a.json", "b.json"⟩, ⟨.streamAlias, "x", "b.json", "b.json"⟩] ∧
    (ofRules contendingRules).ambiguities.size + 3 = 7 ∧
    ∃ winner, contendingRules.find? (fun rule => rule.identity? .stream = some "s") = some winner ∧
      winner.source = "a.json" ∧
      (ofRules contendingRules).find? (Identity.stream.event "s") = some winner := by
  obtain ⟨entries, counted, won⟩ := ambiguities_exact contendingRules
  have filled : ∀ rule ∈ contendingRules, ∀ identity, rule.identity? identity ≠ some "" := by
    intro rule inside identity
    fin_cases inside <;> cases identity <;> decide
  have listed : (ofRules contendingRules).ambiguities.toList =
      [⟨.project, "p", "a.json", "a.json"⟩, ⟨.project, "p", "a.json", "b.json"⟩,
        ⟨.stream, "s", "a.json", "b.json"⟩, ⟨.streamAlias, "x", "b.json", "b.json"⟩] :=
    entries.trans (by decide)
  refine ⟨filled, listed, counted, ?_⟩
  exact won filled ⟨.stream, "s", "a.json", "b.json"⟩ (by simp [listed])

end RuleIndex

end EventRelay
