import EventRelay.Rule.Index
import EventRelay.Rule.Source

/-!
# The published rules

A rule book publishes the rules of the last load that succeeded, and counts such loads as
generations. A load that fails changes nothing.
-/

namespace EventRelay

/-- What a successful load has published. -/
structure ReloadSummary where
  loaded : Nat
  skipped : Nat
  inactive : Nat
  ambiguous : Nat
  generation : Nat
  deriving DecidableEq, Repr

/-- The published rules and where they come from. -/
structure RuleBook where
  source : RuleSource
  published : RuleIndex
  generation : Nat

namespace RuleBook

/-- A book that has published no rules yet. -/
def ofSource (source : RuleSource) : RuleBook :=
  ⟨source, .empty, 0⟩

/-- Publishes the outcome of a load. -/
def publish (book : RuleBook) (outcome : Except LoadError LoadReport) :
    Except LoadError ReloadSummary × RuleBook :=
  match outcome with
  | .error problem => (.error problem, book)
  | .ok report =>
    let published := RuleIndex.ofRules report.rules
    let generation := book.generation + 1
    (.ok
      { loaded := published.size
        skipped := report.skipped.length
        inactive := report.inactive
        ambiguous := published.ambiguities.size
        generation },
      { book with published, generation })

/-- Loads the source again. -/
def reload (book : RuleBook) (files : FileTree) : Except LoadError ReloadSummary × RuleBook :=
  book.publish (book.source.load files)

/-- A book whose source has been loaded once. -/
def load (source : RuleSource) (files : FileTree) : Except LoadError RuleBook :=
  match (ofSource source).reload files with
  | (.error problem, _) => .error problem
  | (.ok _, book) => .ok book

/-- The book whose source has other rules at hand, which the next load will find. -/
def supply (book : RuleBook) (rules : List Rule) : RuleBook :=
  { book with source := book.source.supply rules }

/-- The rule for an event. -/
def find? (book : RuleBook) (event : Json) : Option Rule :=
  book.published.find? event

/-- The diagnostic text of a book. -/
def describe (book : RuleBook) : String :=
  "RuleStore \x7b source: " ++ Text.quote book.source.describe ++ ", rules: " ++
    Decimal.text book.published.size ++ ", generation: " ++ Decimal.text book.generation ++ " \x7d"

end RuleBook

end EventRelay
