import EventRelay.Json.Basic

/-!
# Events and the fields that identify them

An event is a JSON value. Only its members that hold text other than the empty one count: anything
else reads as absent. Three of these members tie an event to a stream.
-/

namespace EventRelay

namespace Json

/-- The text of the named member, if there is one and it is not empty. -/
def field? (name : String) (event : Json) : Option String :=
  match event.member? name with
  | some (.text value) => if value.isEmpty then none else some value
  | _ => none

/-- The first of the named members that counts. -/
def firstField? (names : List String) (event : Json) : Option String :=
  names.findSome? fun name => event.field? name

end Json

/-- A member that ties an event to a stream. -/
inductive Identity
  | project
  | streamAlias
  | stream
  deriving DecidableEq, Hashable, Repr

namespace Identity

/-- All identities, in the order in which they are looked at. -/
def all : List Identity :=
  [.project, .streamAlias, .stream]

/-- The name of the member. -/
def name : Identity → String
  | .project => "project_id"
  | .streamAlias => "stream_alt_id"
  | .stream => "stream_id"

/-- The value of an identity in an event, if it has one. -/
def of? (identity : Identity) (event : Json) : Option String :=
  event.field? identity.name

end Identity

end EventRelay
