import EventRelay.Rule.Index
import Mathlib

/-!
# The indexed rule is the first rule that claims the event

A scan of the rules in load order is authoritative. The index agrees with it because every entry
holds the position of the earliest rule that carries the value: adding a rule enters a value only
where no earlier rule carries it, and moves no entry that is there.
-/

namespace EventRelay

namespace Rule

/-- An event is claimed by a rule when one of the event's identities is a text other than the empty
one and the rule carries that text for the same identity. -/
def Claims (rule : Rule) (event : Json) : Prop :=
  ∃ identity value, event.member? (Identity.name identity) = some (.text value) ∧ value ≠ "" ∧
    rule.identity? identity = some value

/-- Whether a rule carries the value of one identity of an event. -/
def claimsThrough (event : Json) (rule : Rule) (identity : Identity) : Bool :=
  (identity.of? event).any fun value => rule.identity? identity = some value

/-- Whether a rule claims an event. -/
def claims (rule : Rule) (event : Json) : Bool :=
  Identity.all.any (claimsThrough event rule)

end Rule

/-- A member counts exactly when it is a text other than the empty one. -/
theorem Json.field?_eq_some_iff {name value : String} {event : Json} :
    event.field? name = some value ↔ event.member? name = some (.text value) ∧ value ≠ "" := by
  unfold Json.field?
  split
  · rename_i text found
    by_cases blank : text = ""
    · subst blank
      simp [found]
    · have filled : text.isEmpty = false := by simpa using blank
      simp only [filled, found, Bool.false_eq_true, if_false, Option.some.injEq, Json.text.injEq]
      constructor
      · rintro rfl
        exact ⟨rfl, blank⟩
      · exact fun same => same.1
  · rename_i other
    simp only [reduceCtorEq, false_iff, not_and]
    intro found
    exact absurd found (other value)

/-- Every identity is looked at. -/
theorem Identity.mem_all (identity : Identity) : identity ∈ Identity.all := by
  cases identity <;> decide

/-- The computed claim is the declared one. -/
theorem Rule.claims_iff {rule : Rule} {event : Json} :
    rule.claims event = true ↔ rule.Claims event := by
  simp only [Rule.claims, Rule.claimsThrough, Rule.Claims, List.any_eq_true, Option.any_eq_true,
    decide_eq_true_eq, Identity.of?, Json.field?_eq_some_iff]
  constructor
  · rintro ⟨identity, _, value, ⟨present, filled⟩, carried⟩
    exact ⟨identity, value, present, filled, carried⟩
  · rintro ⟨identity, value, present, filled, carried⟩
    exact ⟨identity, identity.mem_all, value, ⟨present, filled⟩, carried⟩

instance (rule : Rule) (event : Json) : Decidable (rule.Claims event) :=
  decidable_of_iff _ Rule.claims_iff

/-! ## An event with one identity -/

/-- The event that has the value of one identity and nothing else. -/
def Identity.event (identity : Identity) (value : String) : Json :=
  .object [(identity.name, .text value)]

/-- The names of identities differ. -/
theorem Identity.name_injective : Function.Injective Identity.name := by
  intro first second same
  cases first <;> cases second <;> simp_all [Identity.name]

/-- The event with the value of one identity is claimed by the rules that carry the value for this
identity. -/
theorem Rule.claims_event_iff {rule : Rule} {identity : Identity} {value : String}
    (filled : value ≠ "") :
    rule.Claims (identity.event value) ↔ rule.identity? identity = some value := by
  have member : ∀ other : Identity, (identity.event value).member? other.name =
      if other = identity then some (.text value) else none := by
    intro other
    by_cases same : other = identity
    · simp [Identity.event, Json.member?, same]
    · have unlike : (other.name == identity.name) = false := by
        simpa using fun names => same (Identity.name_injective names)
      simp [Identity.event, Json.member?, List.lookup_cons, same, unlike]
  unfold Rule.Claims
  constructor
  · rintro ⟨other, held, present, -, carried⟩
    rw [member] at present
    split at present
    · rename_i same
      obtain rfl : value = held := by simpa using present
      exact same ▸ carried
    · simp at present
  · intro carried
    exact ⟨identity, value, by rw [member, if_pos rfl], filled, carried⟩

/-! ## Positions in a list -/

/-- The least of the positions at which some predicates first hold is the position at which any of
them first holds. -/
theorem min?_filterMap_findIdx? {α β : Type} (holds : β → α → Bool) (tests : List β)
    (items : List α) :
    (tests.filterMap fun test => items.findIdx? (holds test)).min? =
      items.findIdx? fun item => tests.any fun test => holds test item := by
  cases position : items.findIdx? fun item => tests.any fun test => holds test item with
  | none =>
    have nowhere := List.findIdx?_eq_none_iff.mp position
    rw [List.min?_eq_none_iff, List.filterMap_eq_nil_iff]
    intro test member
    rw [List.findIdx?_eq_none_iff]
    intro item present
    have absent := nowhere item present
    rw [List.any_eq_false] at absent
    simpa using absent test member
  | some index =>
    obtain ⟨bound, reached, earlier⟩ := List.findIdx?_eq_some_iff_getElem.mp position
    rw [List.min?_eq_some_iff]
    constructor
    · obtain ⟨test, member, accepted⟩ := List.any_eq_true.mp reached
      refine List.mem_filterMap.mpr ⟨test, member, ?_⟩
      refine List.findIdx?_eq_some_iff_getElem.mpr ⟨bound, accepted, fun j before => ?_⟩
      intro found
      exact earlier j before (List.any_eq_true.mpr ⟨test, member, found⟩)
    · intro other found
      obtain ⟨test, member, located⟩ := List.mem_filterMap.mp found
      obtain ⟨otherBound, accepted, _⟩ := List.findIdx?_eq_some_iff_getElem.mp located
      by_contra sooner
      exact earlier other (Nat.lt_of_not_le sooner) (List.any_eq_true.mpr ⟨test, member, accepted⟩)

namespace RuleIndex

/-! ## The invariant of the index -/

/-- An index agrees with rules in load order when it holds them and finds, for every value of every
identity, the earliest one that carries it. -/
structure Agrees (index : RuleIndex) (rules : List Rule) : Prop where
  held : index.rules = rules.toArray
  earliest : ∀ identity value, index.first[(identity, value)]? =
    rules.findIdx? fun rule => rule.identity? identity = some value

/-- A claim leaves the rules alone. -/
theorem rules_claim (rule : Rule) (index : RuleIndex) (identity : Identity) :
    (claim rule index identity).rules = index.rules := by
  unfold claim
  split
  · rfl
  · split <;> rfl

/-- A claim enters the next position for the value that the rule carries, unless an entry is there,
and changes no other entry. -/
theorem first_claim (rule : Rule) (index : RuleIndex) (identity other : Identity)
    (value : String) :
    (claim rule index identity).first[(other, value)]? =
      index.first[(other, value)]?.or
        (if other = identity ∧ rule.identity? other = some value then some index.rules.size
          else none) := by
  unfold claim
  cases carried : rule.identity? identity with
  | none =>
    have never : ¬ (other = identity ∧ rule.identity? other = some value) := by
      rintro ⟨rfl, same⟩
      rw [carried] at same
      contradiction
    simp [never]
  | some held =>
    cases entry : index.first[(identity, held)]? with
    | none =>
      simp only [entry, Std.HashMap.getElem?_insert]
      by_cases same : (identity, held) = (other, value)
      · obtain ⟨rfl, rfl⟩ := Prod.mk.injEq .. ▸ same
        simp [entry, carried]
      · have never : ¬ (other = identity ∧ rule.identity? other = some value) := by
          rintro ⟨rfl, agrees⟩
          rw [carried, Option.some.injEq] at agrees
          exact same (by rw [agrees])
        simp [same, never]
    | some position =>
      by_cases same : other = identity ∧ rule.identity? other = some value
      · obtain ⟨rfl, agrees⟩ := same
        rw [carried, Option.some.injEq] at agrees
        subst agrees
        simp [entry]
      · simp [entry, same]

/-- Claims of several identities one after the other. -/
theorem first_foldl_claim (rule : Rule) (identities : List Identity) (index : RuleIndex)
    (other : Identity) (value : String) :
    (identities.foldl (claim rule) index).rules = index.rules ∧
      (identities.foldl (claim rule) index).first[(other, value)]? =
        index.first[(other, value)]?.or
          (if other ∈ identities ∧ rule.identity? other = some value then some index.rules.size
            else none) := by
  induction identities generalizing index with
  | nil => simp
  | cons identity rest inductionHypothesis =>
    have later := inductionHypothesis (claim rule index identity)
    rw [rules_claim, first_claim] at later
    refine ⟨later.1, later.2.trans ?_⟩
    rw [Option.or_assoc]
    congr 1
    by_cases carried : rule.identity? other = some value
    · by_cases here : other = identity
      · simp [carried, ← here]
      · simp [carried, here]
    · simp [carried]

/-- Adding a rule keeps the agreement. -/
theorem Agrees.push {index : RuleIndex} {rules : List Rule} (agrees : index.Agrees rules)
    (rule : Rule) : (index.push rule).Agrees (rules ++ [rule]) where
  held := by
    have kept := (first_foldl_claim rule Identity.all index .project "").1
    simp [RuleIndex.push, kept, agrees.held]
  earliest := by
    intro identity value
    have entered := (first_foldl_claim rule Identity.all index identity value).2
    have size : index.rules.size = rules.length := by simp [agrees.held]
    simp only [RuleIndex.push, entered, agrees.earliest, Identity.mem_all, true_and, size,
      List.findIdx?_append, List.findIdx?_singleton]
    by_cases carried : rule.identity? identity = some value <;> simp [carried]

/-- The index of a list of rules agrees with the list. -/
theorem agrees_ofRules (rules : List Rule) : (ofRules rules).Agrees rules := by
  suffices general : ∀ (later earlier : List Rule) (index : RuleIndex), index.Agrees earlier →
      (later.foldl RuleIndex.push index).Agrees (earlier ++ later) by
    have start : RuleIndex.empty.Agrees [] := ⟨rfl, by simp [RuleIndex.empty]⟩
    simpa [ofRules] using general rules [] RuleIndex.empty start
  intro later
  induction later with
  | nil =>
    intro earlier index agrees
    simpa using agrees
  | cons rule rest inductionHypothesis =>
    intro earlier index agrees
    simpa using inductionHypothesis (earlier ++ [rule]) (index.push rule) (agrees.push rule)

/-- The rules of an index are the ones that it was made of. -/
@[simp] theorem rules_ofRules (rules : List Rule) : (ofRules rules).rules = rules.toArray :=
  (agrees_ofRules rules).held

/-- The position of the rule for an event. -/
def position? (index : RuleIndex) (event : Json) : Option Nat :=
  (index.positions event).min?

/-- The position of the indexed rule is the first one at which a rule claims the event. -/
theorem position?_ofRules (rules : List Rule) (event : Json) :
    (ofRules rules).position? event = rules.findIdx? fun rule => rule.claims event := by
  have found : ∀ identity, ((identity.of? event).bind fun value =>
      (ofRules rules).first[(identity, value)]?) =
        rules.findIdx? fun rule => rule.claimsThrough event identity := by
    intro identity
    cases present : identity.of? event with
    | none =>
      symm
      simp [Rule.claimsThrough, present, List.findIdx?_eq_none_iff]
    | some value =>
      simp [Rule.claimsThrough, present, (agrees_ofRules rules).earliest]
  rw [position?, positions, funext found]
  exact min?_filterMap_findIdx? (fun identity rule => rule.claimsThrough event identity)
    Identity.all rules

/-- The indexed rule is the one that a scan in load order finds. -/
theorem find?_ofRules (rules : List Rule) (event : Json) :
    (ofRules rules).find? event = rules.find? fun rule => rule.claims event := by
  have least := position?_ofRules rules event
  rw [position?] at least
  rw [find?, least, List.find?_eq_bind_findIdx?_getElem?]
  simp

/-- The indexed rule is the first one in load order that claims the event, there is none exactly
when no rule claims it, and every position in the index is that of a rule which carries the
value. -/
theorem find?_isFirstClaim (rules : List Rule) (event : Json) :
    (∀ rule, (ofRules rules).find? event = some rule ↔
      ∃ earlier later, rules = earlier ++ rule :: later ∧ rule.Claims event ∧
        ∀ other ∈ earlier, ¬ other.Claims event) ∧
    ((ofRules rules).find? event = none ↔ ∀ rule ∈ rules, ¬ rule.Claims event) ∧
    (∀ (identity : Identity) (value : String) (position : Nat),
      (ofRules rules).first[(identity, value)]? = some position →
      ∃ rule, (ofRules rules).rules[position]? = some rule ∧
        rule.identity? identity = some value) := by
  refine ⟨fun rule => ?_, ?_, ?_⟩
  · rw [find?_ofRules, List.find?_eq_some_iff_append]
    simp only [← Rule.claims_iff, Bool.not_eq_true', Bool.not_eq_true]
    constructor
    · rintro ⟨claimed, earlier, later, split, before⟩
      exact ⟨earlier, later, split, claimed, before⟩
    · rintro ⟨earlier, later, split, claimed, before⟩
      exact ⟨claimed, earlier, later, split, before⟩
  · rw [find?_ofRules, List.find?_eq_none]
    simp only [Rule.claims_iff]
  · intro identity value position entry
    rw [(agrees_ofRules rules).earliest] at entry
    obtain ⟨bound, carried, _⟩ := List.findIdx?_eq_some_iff_getElem.mp entry
    exact ⟨rules[position], by simp [bound], of_decide_eq_true carried⟩

end RuleIndex

end EventRelay
