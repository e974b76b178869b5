import EventRelay.Event
import EventRelay.Text.Split

/-!
# Where an event is stored

The destination of an event is a table in a namespace. Each of the two names takes one segment of
the table's path, so separators inside a name are replaced.
-/

namespace EventRelay

/-- A table in a namespace. -/
structure Destination where
  namespaceName : String
  table : String
  deriving DecidableEq, Repr

namespace Destination

/-- The namespace of events that name none. -/
def defaultNamespace : String :=
  "rtdl_default_db"

/-- The table of events that name none. -/
def defaultTable : String :=
  "rtdl_default_table"

/-- The members that may name the namespace, the first one that counts being taken. -/
def namespaceFields : List String :=
  Identity.all.map Identity.name

/-- The members that may name the table, the first one that counts being taken. -/
def tableFields : List String :=
  ["type", "message_type"]

/-- The destination of an event; there always is one. -/
def ofEvent (event : Json) : Destination :=
  { namespaceName := (event.firstField? namespaceFields).getD defaultNamespace
    table := (event.firstField? tableFields).getD defaultTable }

/-- The name with a point between its parts. -/
def name (destination : Destination) : String :=
  destination.namespaceName ++ "." ++ destination.table

/-- A name as one segment of a path. -/
def segment (name : String) : String :=
  String.ofList (name.toList.map fun c => if c = '/' ∨ c = '\\' then '_' else c)

/-- The path of the table, below a root prefix if there is one. -/
def path (destination : Destination) (root : Option String) : String :=
  let below := segment destination.namespaceName ++ "/" ++ segment destination.table
  match root with
  | some root => root ++ "/" ++ below
  | none => below

end Destination

end EventRelay
