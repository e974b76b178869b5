/-!
# Binary floating point of 64 bits

A size is a finite number that is not negative, in the binary format with 53 bits of precision. It
is stored as its place in the increasing list of all such numbers, so equal numbers are equal values
and the next larger number has the next place. All arithmetic is exact on natural numbers and then
rounds to the nearest size, a tie going to the even place.
-/

namespace EventRelay.Decimal

/-- How many sizes share a power of two: they differ in 52 bits. -/
def sizesPerScale : Nat :=
  4503599627370496

/-- How many finite sizes there are: those of 2047 exponents. -/
def sizeCount : Nat :=
  2047 * sizesPerScale

/-- A finite number of the 64-bit binary format that is not negative. -/
structure Size where
  place : Nat
  finite : place < sizeCount
  deriving DecidableEq

namespace Size

/-- The number zero. -/
def zero : Size :=
  ⟨0, by decide⟩

/-- The common denominator of all sizes. -/
def denominator : Nat :=
  Nat.pow 2 1074

/-- The whole number that a size is a power of two times. -/
def significand (size : Size) : Nat :=
  if size.place < sizesPerScale then size.place
  else sizesPerScale + size.place % sizesPerScale

/-- The exponent of that power of two, over the common denominator. -/
def scale (size : Size) : Nat :=
  size.place / sizesPerScale - 1

/-- The numerator of a size over the common denominator. -/
def numerator (size : Size) : Nat :=
  size.significand * Nat.pow 2 size.scale

/-- The quotient of two numbers rounded to a whole number, a half going to the even one. -/
def roundedQuotient (num den : Nat) : Nat :=
  let quotient := num / den
  let twice := 2 * (num % den)
  if twice < den then quotient
  else if den < twice then quotient + 1
  else quotient + quotient % 2

/-- The scale at which the quotient of two numbers has 53 bits, or the least scale. -/
def scaleOf (num den : Nat) : Nat :=
  let guess := num.log2 + 1074 - den.log2 - 53
  if Nat.pow 2 (guess + 53) * den ≤ num * denominator then guess + 1 else guess

/-- The size nearest to the quotient of two numbers, the divisor not being zero; none when that is
beyond the largest finite one. -/
def nearest? (num den : Nat) : Option Size :=
  let scale := if num = 0 then 0 else scaleOf num den
  let place :=
    scale * sizesPerScale + roundedQuotient (num * denominator) (den * Nat.pow 2 scale)
  if finite : place < sizeCount then some ⟨place, finite⟩ else none

/-- The size nearest to a natural number; none when that is beyond the largest finite one. -/
def ofNat? (n : Nat) : Option Size :=
  nearest? n 1

/-- The product of two sizes, rounded. -/
def mul? (a b : Size) : Option Size :=
  nearest? (a.numerator * b.numerator) (denominator * denominator)

/-- The quotient of two sizes, rounded. -/
def div? (a b : Size) : Option Size :=
  nearest? a.numerator b.numerator

end Size

end EventRelay.Decimal
