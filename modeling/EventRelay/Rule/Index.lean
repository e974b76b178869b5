import EventRelay.Rule.Basic
import Std.Data.HashMap

/-!
# Rules indexed by what they claim

An index holds rules in load order. For each value of each identity it knows the first rule that
claims the value, and it records every later claim to the same value. The earliest rule found
through the identities of an event is the rule for the event.
-/

namespace EventRelay

/-- A value that two rules claim; the first one wins. -/
structure Ambiguity where
  identity : Identity
  value : String
  winner : String
  shadowed : String
  deriving DecidableEq, Repr

/-- Rules in load order with an index by claimed value. -/
structure RuleIndex where
  rules : Array Rule
  /-- The position of the first rule that claims a value. -/
  first : Std.HashMap (Identity × String) Nat
  ambiguities : Array Ambiguity

namespace RuleIndex

/-- The index without rules. -/
def empty : RuleIndex :=
  ⟨#[], ∅, #[]⟩

/-- How many rules there are. -/
def size (index : RuleIndex) : Nat :=
  index.rules.size

/-- Enters one claim of a rule that is about to be added. -/
def claim (rule : Rule) (index : RuleIndex) (identity : Identity) : RuleIndex :=
  match rule.identity? identity with
  | none => index
  | some value =>
    match index.first[(identity, value)]? with
    | none => { index with first := index.first.insert (identity, value) index.rules.size }
    | some position =>
      let winner := ((index.rules[position]?).map Rule.source).getD ""
      { index with
        ambiguities := index.ambiguities.push ⟨identity, value, winner, rule.source⟩ }

/-- Adds a rule after all others. -/
def push (index : RuleIndex) (rule : Rule) : RuleIndex :=
  let claimed := Identity.all.foldl (claim rule) index
  { claimed with rules := claimed.rules.push rule }

/-- The index of rules in load order. -/
def ofRules (rules : List Rule) : RuleIndex :=
  rules.foldl push empty

/-- The positions found through the identities of an event. -/
def positions (index : RuleIndex) (event : Json) : List Nat :=
  Identity.all.filterMap fun identity =>
    (identity.of? event).bind fun value => index.first[(identity, value)]?

/-- The rule for an event: of the rules that claim the value of any of its identities, the first
one. -/
def find? (index : RuleIndex) (event : Json) : Option Rule :=
  (index.positions event).min?.bind fun position => index.rules[position]?

/-- How many rules have a chain. -/
def chained (index : RuleIndex) : Nat :=
  index.rules.toList.countP fun rule => rule.chain.isSome

end RuleIndex

end EventRelay
