/-!
# Decimal digits and natural numbers

A natural number has one shortest decimal text. Reading is by Horner's rule, so leading zeros do not
change a value.
-/

namespace EventRelay.Decimal

/-- One decimal digit. -/
abbrev Digit := Fin 10

namespace Digit

/-- The digit zero. -/
def zero : Digit :=
  ⟨0, by decide⟩

/-- The ASCII character of a digit. -/
def char (digit : Digit) : Char :=
  Char.ofNat (digit.val + 48)

/-- The digit that an ASCII character stands for, if it stands for one. -/
def ofChar? (c : Char) : Option Digit :=
  if bound : 48 ≤ c.toNat ∧ c.toNat < 58 then some ⟨c.toNat - 48, by omega⟩ else none

/-- A digit is read back from its character. -/
@[simp] theorem ofChar?_char (digit : Digit) : ofChar? digit.char = some digit := by
  revert digit; decide

end Digit

/-- The digits of a number, the most significant one first; zero has one digit. -/
def digits (n : Nat) : List Digit :=
  if n < 10 then [Fin.ofNat 10 n] else digits (n / 10) ++ [Fin.ofNat 10 (n % 10)]
termination_by n

/-- The number that a list of digits stands for. -/
def value (ds : List Digit) : Nat :=
  ds.foldl (fun sum digit => 10 * sum + digit.val) 0

/-- The last digits of a number, as many as are asked for, zeros in front where it is short. -/
def lastDigits : Nat → Nat → List Digit
  | 0, _ => []
  | width + 1, n => lastDigits width (n / 10) ++ [Fin.ofNat 10 (n % 10)]

/-- The shortest decimal text of a number. -/
def text (n : Nat) : String :=
  String.ofList ((digits n).map Digit.char)

/-- The digits that a list of characters stands for, if all of them are ASCII digits. -/
def digits? (chars : List Char) : Option (List Digit) :=
  chars.mapM Digit.ofChar?

end EventRelay.Decimal
