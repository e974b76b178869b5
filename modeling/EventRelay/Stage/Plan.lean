import EventRelay.Rule.Basic

/-!
# Where an event goes next

A rule with a chain sends an event to the stage that follows the current one. The event ends here if
there is no such rule or the current stage is the last one; a chain that does not name the current
stage is a fault of the rule.
-/

namespace EventRelay

/-- The next stage and the topic that it reads from. -/
structure Target where
  stage : String
  topic : String
  deriving DecidableEq, Repr

namespace Target

/-- What follows the name of a stage in the name of its topic. -/
def topicEnding : String :=
  "-ingress"

/-- The target of a stage. -/
def ofStage (stage : String) : Target :=
  ⟨stage, stage ++ topicEnding⟩

end Target

/-- A chain that does not name the current stage. -/
structure IntegrityError where
  stage : String
  chain : String
  deriving DecidableEq, Repr

namespace IntegrityError

/-- The wording of an error. -/
def message (problem : IntegrityError) : String :=
  "stage '" ++ problem.stage ++ "' is not part of chain '" ++ problem.chain ++ "'"

end IntegrityError

/-- Where an event goes after the current stage, given the rule for it; none where it ends. -/
def plan (rule : Option Rule) (current : String) : Except IntegrityError (Option Target) :=
  match rule.bind Rule.chain with
  | none => .ok none
  | some chain =>
    match chain.successor current with
    | .next stage => .ok (some (.ofStage stage))
    | .last => .ok none
    | .missing => .error ⟨current, chain.text⟩

end EventRelay
