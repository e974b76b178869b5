import EventRelay.Chain
import EventRelay.Event

/-!
# Routing rules

A rule says which events it claims, by the values of their identities, and through which chain of
stages they pass. Empty values and empty chains count as absent.
-/

namespace EventRelay

/-- A routing rule. -/
structure Rule where
  /-- The name of the record that the rule comes from. -/
  source : String
  project : Option String := none
  streamAlias : Option String := none
  stream : Option String := none
  chain : Option Chain := none
  active : Bool := true
  messageType : Option String := none
  folderName : Option String := none
  deriving DecidableEq, Repr

namespace Rule

/-- An active rule that claims nothing. -/
def named (source : String) : Rule :=
  { source }

/-- A text, unless it is empty. -/
def present? (value : String) : Option String :=
  if value.isEmpty then none else some value

/-- The rule with the value of one identity; an empty value counts as absent. -/
def withIdentity (rule : Rule) (identity : Identity) (value : String) : Rule :=
  match identity with
  | .project => { rule with project := present? value }
  | .streamAlias => { rule with streamAlias := present? value }
  | .stream => { rule with stream := present? value }

/-- The rule with a chain; a chain without stages counts as absent. -/
def withChain (rule : Rule) (chain : Chain) : Rule :=
  { rule with chain := if chain.stages.isEmpty then none else some chain }

/-- The rule made active or inactive. -/
def withActive (rule : Rule) (active : Bool) : Rule :=
  { rule with active }

/-- The rule with a message type, which is for information only. -/
def withMessageType (rule : Rule) (messageType : String) : Rule :=
  { rule with messageType := some messageType }

/-- The rule with a folder name, which is for information only. -/
def withFolderName (rule : Rule) (folderName : String) : Rule :=
  { rule with folderName := some folderName }

/-- The value that a rule claims for an identity, if it claims one. -/
def identity? (rule : Rule) : Identity → Option String
  | .project => rule.project
  | .streamAlias => rule.streamAlias
  | .stream => rule.stream

/-- Whether a rule claims any value. -/
def hasIdentity (rule : Rule) : Bool :=
  Identity.all.any fun identity => (rule.identity? identity).isSome

/-- Refuses a rule with a chain that no event can match. -/
def validate (rule : Rule) : Except RuleError Unit :=
  if rule.chain.isSome && !rule.hasIdentity then .error .noIdentity else .ok ()

end Rule

end EventRelay
