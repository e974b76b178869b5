import EventRelay.Decimal.Binary64

/-!
# JSON values

The members of an object are kept as a list of pairs. Reading keeps their order and repeated names;
the normal form of a value has the members of every object in increasing order of name, and of
repeated names only the last one.
-/

namespace EventRelay

/-- An integer that 64 bits hold, with a sign or without one. -/
structure Integer where
  value : Int
  atLeast : -9223372036854775808 ≤ value
  below : value < 18446744073709551616
  deriving DecidableEq

namespace Integer

/-- The integer of a value that is in range. -/
def ofInt? (value : Int) : Option Integer :=
  if range : -9223372036854775808 ≤ value ∧ value < 18446744073709551616 then
    some ⟨value, range.1, range.2⟩
  else none

end Integer

/-- A JSON number: an exact integer, or a floating-point number given by its sign and size. -/
inductive Number
  | integer (value : Integer)
  | float (negative : Bool) (size : Decimal.Size)
  deriving DecidableEq

/-- A JSON value. -/
inductive Json
  | null
  | boolean (value : Bool)
  | number (value : Number)
  | text (value : String)
  | array (items : List Json)
  | object (members : List (String × Json))

namespace Json

/-- A natural number as a value; one that is out of range becomes null. -/
def ofNat (n : Nat) : Json :=
  match Integer.ofInt? n with
  | some value => .number (.integer value)
  | none => .null

/-- A text that may be missing as a value. -/
def ofText? : Option String → Json
  | some value => .text value
  | none => .null

/-- The word for the kind of a value. -/
def kind : Json → String
  | .null => "null"
  | .boolean _ => "boolean"
  | .number _ => "number"
  | .text _ => "string"
  | .array _ => "array"
  | .object _ => "object"

/-- Holds for objects. -/
def isObject : Json → Bool
  | .object _ => true
  | _ => false

/-- The member of an object that has a name, if there is one. -/
def member? (name : String) : Json → Option Json
  | .object members => members.lookup name
  | _ => none

/-- Puts a member into a list that is sorted by name, in place of one with the same name. -/
def insertMember (name : String) (value : Json) : List (String × Json) → List (String × Json)
  | [] => [(name, value)]
  | (other, held) :: rest =>
    if name < other then (name, value) :: (other, held) :: rest
    else if name = other then (name, value) :: rest
    else (other, held) :: insertMember name value rest

/-- Members in increasing order of name, the last one of each name. -/
def sortMembers (members : List (String × Json)) : List (String × Json) :=
  members.foldl (fun sorted member => insertMember member.1 member.2 sorted) []

mutual

/-- The normal form of a value: the members of every object sorted, the last of each name kept. -/
def normal : Json → Json
  | .null => .null
  | .boolean value => .boolean value
  | .number value => .number value
  | .text value => .text value
  | .array items => .array (normalItems items)
  | .object members => .object (sortMembers (normalMembers members))

/-- The normal forms of the elements of an array. -/
def normalItems : List Json → List Json
  | [] => []
  | item :: rest => item.normal :: normalItems rest

/-- The members of an object with their values in normal form. -/
def normalMembers : List (String × Json) → List (String × Json)
  | [] => []
  | (name, value) :: rest => (name, value.normal) :: normalMembers rest

end

mutual

/-- How many arrays and objects are open at once, at most, when the value is written. -/
def depth : Json → Nat
  | .null => 0
  | .boolean _ => 0
  | .number _ => 0
  | .text _ => 0
  | .array items => depthOfItems items + 1
  | .object members => depthOfMembers members + 1

/-- The greatest depth among the elements of an array. -/
def depthOfItems : List Json → Nat
  | [] => 0
  | item :: rest => max item.depth (depthOfItems rest)

/-- The greatest depth among the member values of an object. -/
def depthOfMembers : List (String × Json) → Nat
  | [] => 0
  | (_, value) :: rest => max value.depth (depthOfMembers rest)

end

end Json

end EventRelay
