import EventRelay.Proofs.Rule.FirstMatch

/-!
# What is recorded of a rule that is added

A rule's claim is recorded as an ambiguity when a rule before it carries the same value for the same
identity. The winner is the earliest such rule. A rule of which fewer ambiguities are recorded than
it has identities is the first one to carry some value.
-/

namespace EventRelay

namespace Rule

/-- A rule is the first one to carry the value of one of its identities. -/
def IsLive (earlier : List Rule) (rule : Rule) : Prop :=
  ∃ identity value, rule.identity? identity = some value ∧
    ∀ other ∈ earlier, other.identity? identity ≠ some value

/-- The identities that a rule carries a value for. -/
def identities (rule : Rule) : List Identity :=
  Identity.all.filter fun identity => (rule.identity? identity).isSome

/-- The ambiguity of a rule with the earliest of the rules before it that carries the same value for
an identity. -/
def ambiguity? (earlier : List Rule) (rule : Rule) (identity : Identity) : Option Ambiguity :=
  (rule.identity? identity).bind fun value =>
    (earlier.find? fun other => other.identity? identity = some value).map fun winner =>
      ⟨identity, value, winner.source, rule.source⟩

/-- The ambiguities of a rule with the rules before it. -/
def ambiguities (earlier : List Rule) (rule : Rule) : List Ambiguity :=
  Identity.all.filterMap (rule.ambiguity? earlier)

/-- A claim is no ambiguity when no rule before carries the value. -/
theorem ambiguity?_eq_none_iff {earlier : List Rule} {rule : Rule} {identity : Identity} :
    rule.ambiguity? earlier identity = none ↔
      ∀ value, rule.identity? identity = some value →
        ∀ other ∈ earlier, other.identity? identity ≠ some value := by
  unfold ambiguity?
  cases rule.identity? identity with
  | none => simp
  | some value => simp

/-- A rule is live exactly when it has fewer ambiguities than identities. -/
theorem length_ambiguities_lt_iff {earlier : List Rule} {rule : Rule} :
    (rule.ambiguities earlier).length < rule.identities.length ↔ rule.IsLive earlier := by
  have carried : rule.ambiguities earlier =
      rule.identities.filterMap (rule.ambiguity? earlier) := by
    rw [ambiguities, identities, List.filterMap_filter]
    refine List.filterMap_congr fun identity _ => ?_
    split
    · rfl
    · rename_i absent
      rw [ambiguity?_eq_none_iff]
      intro value carried
      simp [carried] at absent
  rw [carried, List.length_filterMap_lt_length_iff_exists]
  constructor
  · rintro ⟨identity, inside, fresh⟩
    obtain ⟨-, present⟩ := List.mem_filter.mp inside
    obtain ⟨value, carries⟩ := Option.isSome_iff_exists.mp present
    exact ⟨identity, value, carries, ambiguity?_eq_none_iff.mp fresh value carries⟩
  · rintro ⟨identity, value, carries, first⟩
    refine ⟨identity, List.mem_filter.mpr ⟨identity.mem_all, by simp [carries]⟩, ?_⟩
    rw [ambiguity?_eq_none_iff]
    intro other same
    rw [carries, Option.some.injEq] at same
    exact same ▸ first

end Rule

namespace RuleIndex

/-- A claim records its ambiguity, if the entries for its identity are those of the rules before. -/
theorem ambiguities_claim {index : RuleIndex} {earlier : List Rule} {identity : Identity}
    (held : index.rules = earlier.toArray)
    (earliest : ∀ value, index.first[(identity, value)]? =
      earlier.findIdx? fun rule => rule.identity? identity = some value) (rule : Rule) :
    (claim rule index identity).ambiguities.toList =
      index.ambiguities.toList ++ (rule.ambiguity? earlier identity).toList := by
  unfold claim Rule.ambiguity?
  cases rule.identity? identity with
  | none => simp
  | some value =>
    dsimp only
    rw [earliest, Option.bind_some, List.find?_eq_bind_findIdx?_getElem?]
    cases position : earlier.findIdx? fun rule => rule.identity? identity = some value with
    | none => simp
    | some place =>
      obtain ⟨bound, -, -⟩ := List.findIdx?_eq_some_iff_getElem.mp position
      simp [held, bound]

/-- Claims of different identities record their ambiguities one after the other. -/
theorem ambiguities_foldl_claim {identities : List Identity} (distinct : identities.Nodup)
    {index : RuleIndex} {earlier : List Rule} (held : index.rules = earlier.toArray)
    (earliest : ∀ identity ∈ identities, ∀ value, index.first[(identity, value)]? =
      earlier.findIdx? fun rule => rule.identity? identity = some value) (rule : Rule) :
    (identities.foldl (claim rule) index).ambiguities.toList =
      index.ambiguities.toList ++ identities.filterMap (rule.ambiguity? earlier) := by
  induction identities generalizing index with
  | nil => simp
  | cons identity rest inductionHypothesis =>
    obtain ⟨apart, distinctRest⟩ := List.nodup_cons.mp distinct
    -- The entries for the other identities are still those of the rules before.
    have untouched : ∀ other ∈ rest, ∀ value,
        (claim rule index identity).first[(other, value)]? =
          earlier.findIdx? fun rule => rule.identity? other = some value := by
      intro other later value
      have elsewhere : other ≠ identity := by
        rintro rfl
        exact apart later
      rw [first_claim, earliest other (List.mem_cons_of_mem _ later)]
      simp [elsewhere]
    have here := ambiguities_claim held (earliest identity List.mem_cons_self) rule
    rw [List.foldl_cons,
      inductionHypothesis distinctRest ((rules_claim rule index identity).trans held) untouched,
      here, List.append_assoc]
    congr 1
    cases recorded : rule.ambiguity? earlier identity <;> simp [recorded]

/-- Adding a rule records its ambiguities with the rules before it. -/
theorem ambiguities_push (earlier : List Rule) (rule : Rule) :
    ((ofRules earlier).push rule).ambiguities.toList =
      (ofRules earlier).ambiguities.toList ++ rule.ambiguities earlier := by
  obtain ⟨held, earliest⟩ := agrees_ofRules earlier
  exact ambiguities_foldl_claim (by decide) held (fun identity _ => earliest identity) rule

/-- A rule is live exactly when fewer ambiguities than it has identities are recorded as it is
added. -/
theorem size_ambiguities_push_lt_iff {earlier : List Rule} {rule : Rule} :
    ((ofRules earlier).push rule).ambiguities.size <
      (ofRules earlier).ambiguities.size + rule.identities.length ↔ rule.IsLive earlier := by
  rw [← Rule.length_ambiguities_lt_iff, ← Array.length_toList, ambiguities_push,
    List.length_append, Array.length_toList, Nat.add_lt_add_iff_left]

end RuleIndex

end EventRelay
