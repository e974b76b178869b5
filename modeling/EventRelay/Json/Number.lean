import EventRelay.Decimal.Shortest
import EventRelay.Json.Basic
import EventRelay.Json.Error

/-!
# Numbers and how they are spelled

A number without point and exponent is an exact integer where 64 bits hold it; minus zero and every
other number are floating-point numbers. Those are read in two steps: as many leading digits as fit
into 64 bits make a whole number, rounded to a size, and the decimal exponent is then applied by one
rounded multiplication or division, or several where the exponent is far below the least size. A
floating-point number is written with the fewest digits that lie nearest to it.
-/

namespace EventRelay

open Decimal (Digit Size Scientific)

namespace Json

/-- Digits gathered into a whole number that 64 bits hold, and the power of ten they are to be
scaled by. -/
structure Gathered where
  significand : Nat
  power : Int

/-- The first whole number that 64 bits do not hold. -/
def wordLimit : Nat :=
  18446744073709551616

/-- Gathers the digits of a whole part: from the first digit that does not fit, each one only raises
the power. -/
def gatherWhole (significand : Nat) : List Digit → Gathered
  | [] => ⟨significand, 0⟩
  | digit :: rest =>
    let next := significand * 10 + digit.val
    if next < wordLimit then gatherWhole next rest else ⟨significand, (rest.length + 1 : Nat)⟩

/-- Gathers the digits of a fraction: the first digit that does not fit and all after it are
dropped. -/
def gatherFraction (gathered : Gathered) : List Digit → Gathered
  | [] => gathered
  | digit :: rest =>
    let next := gathered.significand * 10 + digit.val
    if next < wordLimit then gatherFraction ⟨next, gathered.power - 1⟩ rest else gathered

/-- A power of ten as a size; the powers in use are at most `10 ^ 308`. -/
def tenTo (power : Nat) : Size :=
  (Size.ofNat? (Nat.pow 10 power)).getD .zero

/-- A size divided by a power of ten, at most `10 ^ 308` at a time. -/
def scaleDown (size : Size) (power : Nat) : Size :=
  if power ≤ 308 then (size.div? (tenTo power)).getD .zero
  else if size = .zero then .zero
  else scaleDown ((size.div? (tenTo 308)).getD .zero) (power - 308)
termination_by power

/-- A size times a power of ten, which may be negative; none when the result is too large. -/
def scaled? (size : Size) (power : Int) : Option Size :=
  if power < 0 then some (scaleDown size (-power).toNat)
  else if power ≤ 308 then size.mul? (tenTo power.toNat)
  else if size = .zero then some .zero
  else none

/-- The first exponent of ten that an integer of 32 bits does not hold; such exponents are not
computed with. -/
def exponentLimit : Nat :=
  2147483648

/-- The exponent as it counts: an integer of 32 bits, or none beyond those. -/
def exponentValue? (exponent : Exponent) : Option Int :=
  let magnitude := Decimal.value exponent.digits
  if magnitude < exponentLimit then
    some (if exponent.negative then -(magnitude : Int) else magnitude)
  else none

/-- The floating-point number that a numeral stands for. An exponent beyond 32 bits makes zero of a
number whose digits are zero or whose exponent is negative. -/
def floatOf (numeral : Numeral) : Except SyntaxError Number :=
  let gathered := gatherFraction (gatherWhole 0 numeral.whole) numeral.fraction
  let size := (Size.ofNat? gathered.significand).getD .zero
  let exponent : Option Int :=
    match numeral.exponent with
    | none => some 0
    | some exponent => exponentValue? exponent
  match exponent with
  | some exponent =>
    match scaled? size (gathered.power + exponent) with
    | some size => .ok (.float numeral.negative size)
    | none => .error .numberOutOfRange
  | none =>
    if gathered.significand = 0 ∨ numeral.exponent.any Exponent.negative then
      .ok (.float numeral.negative .zero)
    else .error .numberOutOfRange

/-- The number that a numeral stands for. -/
def numberOf (numeral : Numeral) : Except SyntaxError Number :=
  if numeral.fraction.isEmpty ∧ numeral.exponent.isNone then
    let magnitude := Decimal.value numeral.whole
    if numeral.negative ∧ magnitude = 0 then floatOf numeral
    else
      match Integer.ofInt? (if numeral.negative then -(magnitude : Int) else magnitude) with
      | some value => .ok (.integer value)
      | none => floatOf numeral
  else floatOf numeral

/-- The numeral of an integer. -/
def integerNumeral (value : Int) : Numeral :=
  ⟨value < 0, Decimal.digits value.natAbs, [], none⟩

/-- A list of digits with a zero in place of none. -/
def atLeastZero (digits : List Digit) : List Digit :=
  if digits.isEmpty then [Digit.zero] else digits

/-- The numeral with a point and without an exponent; the fraction has at least one digit. -/
def positional (negative : Bool) (number : Scientific) : Numeral :=
  let zeros := List.replicate (-number.exponent - 1).toNat Digit.zero
  if number.exponent < 0 then ⟨negative, [Digit.zero], zeros ++ number.digits, none⟩
  else
    let wholeWidth := number.exponent.toNat + 1
    let filled := number.digits ++ List.replicate (wholeWidth - number.digits.length) Digit.zero
    ⟨negative, filled.take wholeWidth, atLeastZero (filled.drop wholeWidth), none⟩

/-- The numeral with an exponent; there is a fraction only where there are further digits. -/
def withExponent (negative : Bool) (number : Scientific) : Numeral :=
  { negative
    whole := number.digits.take 1
    fraction := number.digits.drop 1
    exponent := some ⟨number.exponent < 0, Decimal.digits number.exponent.natAbs⟩ }

/-- The numeral of a floating-point number: positional from `0.00001` up to sixteen whole digits,
and with an exponent beyond. -/
def floatNumeral (negative : Bool) (size : Size) : Numeral :=
  let number := Decimal.shortest size
  if -5 ≤ number.exponent ∧ number.exponent ≤ 15 then positional negative number
  else withExponent negative number

end Json

namespace Number

/-- The numeral that a number is written as. -/
def numeral : Number → Json.Numeral
  | .integer value => Json.integerNumeral value.value
  | .float negative size => Json.floatNumeral negative size

end Number

end EventRelay
