import EventRelay.Decimal.Binary64
import EventRelay.Decimal.Digits

/-!
# Shortest decimal digits

The shortest digits of a size are the fewest that lie nearer to it than to any other size. They are
found by trying one digit, two digits and so on up to seventeen, which always suffice: on each
decimal grid only the two neighbours of the size can qualify. Of two that do, the nearer one is
taken, and of two that are equally near the even one.
-/

namespace EventRelay.Decimal

/-- Digits in scientific notation: the first digit stands before the point. -/
structure Scientific where
  digits : List Digit
  exponent : Int
  deriving DecidableEq, Repr

namespace Shortest

/-- The numbers that round to a size, as fractions over one denominator. -/
structure Interval where
  low : Nat
  centre : Nat
  high : Nat
  den : Nat
  /-- Whether the two ends themselves round to the size. -/
  closed : Bool

/-- The numbers that round to a size. The step below a power of two is half as wide. -/
def interval (size : Size) : Interval :=
  let m := size.significand
  let unit := Nat.pow 2 size.scale
  let below := if m = sizesPerScale && 0 < size.scale then 1 else 2
  { low := (4 * m - below) * unit
    centre := 4 * m * unit
    high := (4 * m + 2) * unit
    den := 4 * Size.denominator
    closed := m % 2 == 0 }

/-- Whether a number on the denominator's grid rounds to the size. -/
def Interval.holds (range : Interval) (point : Nat) : Bool :=
  if range.closed then range.low ≤ point && point ≤ range.high
  else range.low < point && point < range.high

/-- The interval measured in units of a power of ten. -/
def Interval.inUnits (range : Interval) (power : Int) : Interval :=
  let up := Nat.pow 10 (-power).toNat
  { range with
    low := range.low * up
    centre := range.centre * up
    high := range.high * up
    den := range.den * Nat.pow 10 power.toNat }

/-- The power of ten at the first digit of a fraction that is not zero. -/
def leadingPower (num den : Nat) : Int :=
  if den ≤ num then (digits (num / den)).length - 1
  else -(digits ((den - 1) / num)).length

/-- The multiple of a power of ten that rounds to the size, the better one if there are two. -/
def onGrid? (range : Interval) (power : Int) : Option Nat :=
  let scaled := range.inUnits power
  let below := scaled.centre / scaled.den
  match scaled.holds (below * scaled.den), scaled.holds ((below + 1) * scaled.den) with
  | true, true =>
    let middle := (2 * below + 1) * scaled.den
    if 2 * scaled.centre < middle then some below
    else if middle < 2 * scaled.centre then some (below + 1)
    else some (below + below % 2)
  | true, false => some below
  | false, true => some (below + 1)
  | false, false => none

/-- Digits without the zeros at their end. -/
def withoutTrailingZeros (ds : List Digit) : List Digit :=
  (ds.reverse.dropWhile (· == Digit.zero)).reverse

end Shortest

open Shortest in
/-- The fewest digits that are read back as the size; zero has the digit zero. -/
def shortest (size : Size) : Scientific :=
  let range := interval size
  if size.place = 0 then ⟨[Digit.zero], 0⟩
  else
    let lead := leadingPower range.centre range.den
    let found := (List.range 17).findSome? fun (further : Nat) =>
      let power := lead - (further : Int)
      (onGrid? range power).map (·, power)
    match found with
    | none => ⟨[Digit.zero], 0⟩
    | some (multiple, power) =>
      let ds := digits multiple
      ⟨withoutTrailingZeros ds, power + ds.length - 1⟩

end EventRelay.Decimal
