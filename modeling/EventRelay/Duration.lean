import EventRelay.Decimal.Digits

/-!
# Durations

A duration is a whole number of nanoseconds. Its text uses the largest unit that is not longer than
the duration, with a decimal fraction that has no zero at its end.
-/

namespace EventRelay

/-- A length of time. -/
structure Duration where
  nanoseconds : Nat
  deriving DecidableEq, Repr

namespace Duration

/-- A number of milliseconds. -/
def ofMilliseconds (n : Nat) : Duration :=
  ⟨n * 1000000⟩

/-- A number of seconds. -/
def ofSeconds (n : Nat) : Duration :=
  ⟨n * 1000000000⟩

/-- What is left of a duration after another one; nothing when the other is longer. -/
def minus (total spent : Duration) : Duration :=
  ⟨total.nanoseconds - spent.nanoseconds⟩

/-- The duration rounded up to whole milliseconds. -/
def inMilliseconds (duration : Duration) : Duration :=
  .ofMilliseconds ((duration.nanoseconds + 999999) / 1000000)

/-- Holds when a duration is longer than another one. -/
def exceeds (long short : Duration) : Bool :=
  short.nanoseconds < long.nanoseconds

/-- The characters of a fraction: its digits without the zeros at the end, after a point where any
are left. -/
def fractionText (width : Nat) (fraction : Nat) : List Char :=
  let digits := (Decimal.lastDigits width fraction).reverse.dropWhile (· == Decimal.Digit.zero)
  if digits.isEmpty then [] else '.' :: digits.reverse.map Decimal.Digit.char

/-- A number of nanoseconds in a unit of ten to the given power of them. -/
def inUnit (width : Nat) (nanoseconds : Nat) (unit : String) : String :=
  let size := Nat.pow 10 width
  Decimal.text (nanoseconds / size) ++
    String.ofList (fractionText width (nanoseconds % size)) ++ unit

/-- The text of a duration, such as `10s`, `1.5ms` or `0ns`. -/
def text (duration : Duration) : String :=
  let n := duration.nanoseconds
  if 1000000000 ≤ n then inUnit 9 n "s"
  else if 1000000 ≤ n then inUnit 6 n "ms"
  else if 1000 ≤ n then inUnit 3 n "µs"
  else inUnit 0 n "ns"

end Duration

end EventRelay
