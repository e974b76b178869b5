import EventRelay.Decimal.Digits
import EventRelay.Text.Blank
import EventRelay.Text.Split

/-!
# Chains of stages

A chain names the stages that an event passes through, in order. Names are trimmed, not empty and
different from each other, so a stage has at most one successor.
-/

namespace EventRelay

/-- What is wrong with a routing rule. -/
inductive RuleError
  /-- A stage name is blank; positions count from zero. -/
  | emptyStage (position : Nat)
  /-- A stage is named a second time. -/
  | duplicateStage (name : String)
  /-- There is a chain, and nothing an event could match. -/
  | noIdentity
  deriving DecidableEq, Repr

namespace RuleError

/-- The wording of an error. -/
def message : RuleError → String
  | .emptyStage position =>
    "stage list has an empty entry at position " ++ Decimal.text position
  | .duplicateStage name =>
    "stage '" ++ name ++ "' appears more than once in the stage list"
  | .noIdentity => "rule has stages but no project_id, stream_alt_id or stream_id"

end RuleError

/-- The stages of a chain, in order. -/
structure Chain where
  stages : List String
  deriving DecidableEq, Repr

/-- What follows a stage in a chain. -/
inductive Successor
  | next (stage : String)
  | last
  | missing
  deriving DecidableEq, Repr

namespace Chain

/-- Takes names one after the other, given the ones that have been taken before. -/
def accept (taken : List String) : List String → Except RuleError (List String)
  | [] => .ok []
  | raw :: rest =>
    let name := Text.trim raw
    if name.isEmpty then .error (.emptyStage taken.length)
    else if name ∈ taken then .error (.duplicateStage name)
    else (accept (taken ++ [name]) rest).map (name :: ·)

/-- The chain of a list of names; the first name that cannot be taken decides the error. -/
def ofNames (names : List String) : Except RuleError Chain :=
  (accept [] names).map Chain.mk

/-- The chain of a text: no stage for a blank text, else the names between the commas. -/
def parse (text : String) : Except RuleError Chain :=
  if Text.isBlankText text then .ok ⟨[]⟩ else ofNames (Text.split ',' text)

/-- The text of a chain: its names with commas between them. -/
def text (chain : Chain) : String :=
  Text.join ',' chain.stages

/-- Whether a stage is part of a chain. -/
def contains (chain : Chain) (stage : String) : Bool :=
  stage ∈ chain.stages

/-- What follows the first occurrence of a stage in a list of stages. -/
def successorIn (current : String) : List String → Successor
  | [] => .missing
  | stage :: rest =>
    if stage = current then
      match rest with
      | [] => .last
      | next :: _ => .next next
    else successorIn current rest

/-- What follows a stage in a chain. -/
def successor (chain : Chain) (current : String) : Successor :=
  successorIn current chain.stages

end Chain

end EventRelay
