import EventRelay.Decimal.Digits
import EventRelay.Duration
import EventRelay.Text.Blank

/-!
# Durations in words

A duration is written as a sequence of numbers with units, such as `1h 30min` or `1.5s`, and their
sum is meant; a zero that stands alone needs no unit. Blanks may stand anywhere outside the names of
units. Seconds, and the nanoseconds below a second, are each held in 64 bits while the sum is
formed, and a fraction has to come out even: in nanoseconds for units up to the minute, in seconds
for longer ones.
-/

namespace EventRelay.Duration

/-- A unit of time. -/
structure TimeUnit where
  names : List String
  nanoseconds : Nat
  /-- What whole numbers of the unit are counted in, in nanoseconds. -/
  step : Nat
  /-- What fractions of the unit are counted in, if it has any. -/
  fractionStep : Option Nat

/-- Nanoseconds in a second. -/
def second : Nat :=
  1000000000

/-- A unit that is counted in nanoseconds throughout. -/
def shortUnit (names : List String) (nanoseconds : Nat) : TimeUnit :=
  ⟨names, nanoseconds, 1, some 1⟩

/-- A unit whose whole numbers are counted in seconds and whose fractions in nanoseconds. -/
def middleUnit (names : List String) (seconds : Nat) : TimeUnit :=
  ⟨names, seconds * second, second, some 1⟩

/-- A unit that is counted in seconds throughout. -/
def longUnit (names : List String) (seconds : Nat) : TimeUnit :=
  ⟨names, seconds * second, second, some second⟩

/-- All units of time. A month is the twelfth part of a year, and a year has 365.25 days. -/
def units : List TimeUnit :=
  [⟨["nanos", "nsec", "ns"], 1, 1, none⟩,
    shortUnit ["usec", "us", "µs"] 1000,
    shortUnit ["millis", "msec", "ms"] 1000000,
    middleUnit ["seconds", "second", "secs", "sec", "s"] 1,
    middleUnit ["minutes", "minute", "min", "mins", "m"] 60,
    longUnit ["hours", "hour", "hr", "hrs", "h"] 3600,
    longUnit ["days", "day", "d"] 86400,
    longUnit ["weeks", "week", "wk", "wks", "w"] 604800,
    longUnit ["months", "month", "M"] 2630016,
    longUnit ["years", "year", "yr", "yrs", "y"] 31557600]

/-- The unit of a name. -/
def unitOf? (name : String) : Option TimeUnit :=
  units.find? fun unit => name ∈ unit.names

/-- The first number that 64 bits do not hold. -/
def wordLimit : Nat :=
  18446744073709551616

/-- A number that 64 bits hold. -/
def word? (n : Nat) : Option Nat :=
  if n < wordLimit then some n else none

/-- A fraction as it is written: its digits as a number, and the power of ten below them. -/
structure Fraction where
  numerator : Nat
  denominator : Nat

/-- The sum of a length and a number of steps. Steps that are nanoseconds are added to the
nanoseconds below a second, which have to fit into 64 bits together, and so do the seconds of the
sum. -/
def add? (total step count : Nat) : Option Nat :=
  let sum := total + count * step
  if step = 1 ∧ wordLimit ≤ total % second + count then none
  else if sum / second < wordLimit then some sum
  else none

/-- The sum of a length and a whole number of units. -/
def addWhole? (total : Nat) (unit : TimeUnit) (n : Nat) : Option Nat :=
  (word? (n * (unit.nanoseconds / unit.step))).bind (add? total unit.step)

/-- The sum of a length and a fraction of a unit. -/
def addFraction? (total : Nat) (unit : TimeUnit) (fraction : Fraction) : Option Nat := do
  let step ← unit.fractionStep
  let ticks ← word? (fraction.numerator * (unit.nanoseconds / step))
  if ticks % fraction.denominator = 0 then add? total step (ticks / fraction.denominator) else none

namespace Words

/-- Where the reading of a duration stands between two characters. -/
inductive State
  /-- Before a number, with the sum so far, if there is one. -/
  | before (total : Option Nat)
  /-- Inside a whole number. -/
  | whole (total : Nat) (n : Nat)
  /-- Inside a fraction. -/
  | fraction (total : Nat) (n : Nat) (fraction : Fraction)
  /-- Inside the name of a unit, whose letters are given with the latest one first. -/
  | unit (total : Nat) (n : Nat) (fraction : Option Fraction) (letters : List Char)

/-- Holds for the letters that names of units consist of. -/
def isUnitLetter (c : Char) : Bool :=
  c.isAlpha || c = 'µ'

/-- The sum with one more number of units. -/
def close? (total n : Nat) (fraction : Option Fraction) (letters : List Char) : Option Nat := do
  let unit ← unitOf? (String.ofList letters.reverse)
  let total ← addWhole? total unit n
  match fraction with
  | none => pure total
  | some fraction => addFraction? total unit fraction

/-- One character. -/
def step? (state : State) (c : Char) : Option State :=
  let digit := (Decimal.Digit.ofChar? c).map Fin.val
  match state with
  | .before total =>
    match digit with
    | some digit => some (.whole (total.getD 0) digit)
    | none => if Text.isBlank c then some state else none
  | .whole total n =>
    match digit with
    | some digit => (word? (n * 10 + digit)).map (.whole total)
    | none =>
      if Text.isBlank c then some state
      else if isUnitLetter c then some (.unit total n none [c])
      else if c = '.' then some (.fraction total n ⟨0, 1⟩)
      else none
  | .fraction total n fraction =>
    match digit with
    | some digit => do
      let numerator ← word? (fraction.numerator * 10 + digit)
      let denominator ← word? (fraction.denominator * 10)
      pure (.fraction total n ⟨numerator, denominator⟩)
    | none =>
      if Text.isBlank c then some state
      else if isUnitLetter c ∧ fraction.denominator ≠ 1 then
        some (.unit total n (some fraction) [c])
      else none
  | .unit total n fraction letters =>
    match digit with
    | some digit => (close? total n fraction letters).map fun total => .whole total digit
    | none =>
      if Text.isBlank c then
        (close? total n fraction letters).map fun total => .before (some total)
      else if isUnitLetter c then some (.unit total n fraction (c :: letters))
      else none

/-- The sum at the end of the text; every number needs a unit. -/
def finish? : State → Option Nat
  | .before total => total
  | .whole .. => none
  | .fraction .. => none
  | .unit total n fraction letters => close? total n fraction letters

end Words

/-- The duration that a text describes. -/
def parse? (text : String) : Option Duration :=
  if text = "0" then some ⟨0⟩
  else
    (text.toList.foldlM Words.step? (.before none)).bind fun state =>
      (Words.finish? state).map Duration.mk

end EventRelay.Duration
