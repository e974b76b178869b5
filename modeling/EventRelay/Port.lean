import EventRelay.Decimal.Digits

/-!
# Ports

A port is a number of 16 bits. Its text is a run of ASCII digits that may have a plus in front;
leading zeros do not matter.
-/

namespace EventRelay.Port

/-- The first number that a port cannot be. -/
def limit : Nat :=
  65536

/-- The characters of a number without the plus that it may have in front. -/
def unsigned : List Char → List Char
  | '+' :: digits => digits
  | digits => digits

/-- The port that a text names. -/
def ofText? (text : String) : Option Nat :=
  let digits := unsigned text.toList
  if digits.isEmpty then none
  else
    (Decimal.digits? digits).bind fun digits =>
      if Decimal.value digits < limit then some (Decimal.value digits) else none

end EventRelay.Port
