/-!
# Cutting a text at a separator

Cutting keeps every piece, empty ones included, so that joining the pieces with the separator gives
the text back.
-/

namespace EventRelay.Text

/-- The pieces of a list between the occurrences of a separator. -/
def splitList (separator : Char) : List Char → List (List Char)
  | [] => [[]]
  | c :: rest =>
    if c = separator then [] :: splitList separator rest
    else
      match splitList separator rest with
      | [] => [[c]]
      | piece :: others => (c :: piece) :: others

/-- The pieces of a text between the occurrences of a separator; a text without one is its only
piece. -/
def split (separator : Char) (text : String) : List String :=
  (splitList separator text.toList).map String.ofList

/-- There is always a first piece. -/
theorem splitList_ne_nil (separator : Char) (chars : List Char) :
    splitList separator chars ≠ [] := by
  cases chars with
  | nil => simp [splitList]
  | cons c rest =>
    simp only [splitList]
    split
    · simp
    · split <;> simp

/-- The characters of the pieces with the separator between them. -/
def joinList (separator : Char) : List (List Char) → List Char
  | [] => []
  | [piece] => piece
  | piece :: others => piece ++ separator :: joinList separator others

/-- The pieces in one text with the separator between them. -/
def join (separator : Char) (pieces : List String) : String :=
  String.ofList (joinList separator (pieces.map String.toList))

end EventRelay.Text
