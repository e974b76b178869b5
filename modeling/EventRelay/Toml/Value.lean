/-!
# TOML values

The entries of a table are in the order in which they are written. Floating-point numbers and points
in time are kept as they are written.
-/

namespace EventRelay.Toml

/-- A TOML value. -/
inductive Value
  | text (value : String)
  | integer (value : Int)
  | float (spelling : String)
  | boolean (value : Bool)
  | time (spelling : String)
  | array (items : List Value)
  | table (entries : List (String × Value))

end EventRelay.Toml
