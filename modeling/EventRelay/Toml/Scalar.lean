import EventRelay.Decimal.Binary64
import EventRelay.Decimal.Digits
import EventRelay.Text.Hex
import EventRelay.Toml.Value

/-!
# TOML numbers, truth values and points in time

Each of them is one word of letters, digits and a few signs, except that a date and a time of day
may have a space between them.
-/

namespace EventRelay.Toml.Scalar

/-- Holds for the characters of a word. -/
def isWordChar (c : Char) : Bool :=
  c.isAlphanum || c = '_' || c = '+' || c = '-' || c = '.' || c = ':'

/-- Digits with single underscores between them; the underscores are left out. -/
def grouped? (isDigit : Char → Bool) : List Char → Option (List Char)
  | [] => none
  | [c] => if isDigit c then some [c] else none
  | c :: '_' :: rest => if isDigit c then (grouped? isDigit rest).map (c :: ·) else none
  | c :: rest => if isDigit c then (grouped? isDigit rest).map (c :: ·) else none

/-- The number of digits of a base. -/
def valueIn (base : Nat) (digits : List Char) : Nat :=
  digits.foldl (fun sum c => sum * base + (EventRelay.Text.hexValue? c).getD 0) 0

/-- Whether an optional sign is a minus, and what follows it. -/
def sign : List Char → Bool × List Char
  | '-' :: rest => (true, rest)
  | '+' :: rest => (false, rest)
  | chars => (false, chars)

/-- The digits of a whole number, which has no zero in front. -/
def wholeDigits? (chars : List Char) : Option (List Char) :=
  match grouped? Char.isDigit chars with
  | some ('0' :: _ :: _) => none
  | digits => digits

/-- A number, if 64 bits hold it with its sign. -/
def inRange? (value : Int) : Option Int :=
  if -9223372036854775808 ≤ value ∧ value < 9223372036854775808 then some value else none

/-- The integer of a word. -/
def integer? (word : List Char) : Option Int :=
  let based (base : Nat) (isDigit : Char → Bool) (digits : List Char) : Option Int :=
    (grouped? isDigit digits).bind fun digits => inRange? (valueIn base digits)
  match word with
  | '0' :: 'x' :: digits => based 16 (fun c => (EventRelay.Text.hexValue? c).isSome) digits
  | '0' :: 'o' :: digits => based 8 (fun c => '0' ≤ c && c ≤ '7') digits
  | '0' :: 'b' :: digits => based 2 (fun c => c = '0' || c = '1') digits
  | _ =>
    let (negative, digits) := sign word
    (wholeDigits? digits).bind fun digits =>
      let magnitude : Int := valueIn 10 digits
      inRange? (if negative then -magnitude else magnitude)

/-- Holds for the letters that begin an exponent. -/
def isMark (c : Char) : Bool :=
  c = 'e' || c = 'E'

/-- The exponent of a word, from its letter on; nothing is the exponent zero. -/
def exponent? : List Char → Option Int
  | [] => some 0
  | _ :: rest =>
    let (negative, digits) := sign rest
    (grouped? Char.isDigit digits).map fun digits =>
      let magnitude : Int := valueIn 10 digits
      if negative then -magnitude else magnitude

/-- Whether a whole number times a power of ten is small enough for a floating-point number. Numbers
far from the limit are told by their digits alone. -/
def isFinite (significand : Nat) (power : Int) : Bool :=
  let magnitude := (Decimal.digits significand).length + power
  if significand = 0 ∨ magnitude < 300 then true
  else if 320 < magnitude then false
  else
    (Decimal.Size.nearest? (significand * Nat.pow 10 power.toNat)
      (Nat.pow 10 (-power).toNat)).isSome

/-- Whether a word is a floating-point number. One that is too large is refused, except with a minus
in front. -/
def isFloat (word : List Char) : Bool :=
  let (negative, body) := sign word
  if body = ['i', 'n', 'f'] || body = ['n', 'a', 'n'] then true
  else
    let whole := body.takeWhile fun c => c ≠ '.' && !isMark c
    let rest := body.drop whole.length
    let fraction := if rest.head? = some '.' then rest.tail.takeWhile fun c => !isMark c else []
    let mark := if rest.head? = some '.' then rest.tail.drop fraction.length else rest
    let fractionDigits :=
      if rest.head? = some '.' then grouped? Char.isDigit fraction else some []
    match wholeDigits? whole, fractionDigits, exponent? mark with
    | some whole, some fraction, some exponent =>
      !rest.isEmpty &&
        (negative || isFinite (valueIn 10 (whole ++ fraction)) (exponent - fraction.length))
    | _, _, _ => false

/-- The number of a fixed count of digits. -/
def fixed? (count : Nat) (chars : List Char) : Option (Nat × List Char) :=
  let digits := chars.take count
  if digits.length = count && digits.all Char.isDigit then
    some (valueIn 10 digits, chars.drop count)
  else none

/-- A number of two digits between two bounds. -/
def pair? (low high : Nat) (chars : List Char) : Option (Nat × List Char) :=
  (fixed? 2 chars).bind fun (value, rest) =>
    if low ≤ value ∧ value ≤ high then some (value, rest) else none

/-- The characters after a given one. -/
def after? (c : Char) : List Char → Option (List Char)
  | [] => none
  | d :: rest => if c = d then some rest else none

/-- How many days a month has. -/
def daysIn (year month : Nat) : Nat :=
  if month = 2 then
    if year % 4 = 0 ∧ (year % 100 ≠ 0 ∨ year % 400 = 0) then 29 else 28
  else if month = 4 ∨ month = 6 ∨ month = 9 ∨ month = 11 then 30
  else 31

/-- What follows a date. -/
def afterDate? (chars : List Char) : Option (List Char) := do
  let (year, rest) ← fixed? 4 chars
  let rest ← after? '-' rest
  let (month, rest) ← pair? 1 12 rest
  let rest ← after? '-' rest
  let (_, rest) ← pair? 1 (daysIn year month) rest
  pure rest

/-- What follows a time of day. -/
def afterTime? (chars : List Char) : Option (List Char) := do
  let (_, rest) ← pair? 0 23 chars
  let rest ← after? ':' rest
  let (_, rest) ← pair? 0 59 rest
  let rest ← after? ':' rest
  let (_, rest) ← pair? 0 60 rest
  match rest with
  | '.' :: fraction =>
    if (fraction.takeWhile Char.isDigit).isEmpty then none
    else pure (fraction.dropWhile Char.isDigit)
  | _ => pure rest

/-- Whether characters are an offset from universal time, or nothing. -/
def isOffset : List Char → Bool
  | [] => true
  | ['Z'] => true
  | ['z'] => true
  | c :: rest =>
    (c = '+' || c = '-') &&
      ((do
        let (_, rest) ← pair? 0 23 rest
        let rest ← after? ':' rest
        let (_, rest) ← pair? 0 59 rest
        pure rest.isEmpty).getD false)

/-- Whether a word is a point in time: a date, a time of day, or both with a letter between them. -/
def isTime (word : List Char) : Bool :=
  match afterDate? word with
  | some [] => true
  | some (c :: rest) =>
    (c = 'T' || c = 't') &&
      (match afterTime? rest with
        | some offset => isOffset offset
        | none => false)
  | none => afterTime? word = some []

/-- The value of a word. -/
def ofWord? (word : List Char) : Option Value :=
  if word = ['t', 'r', 'u', 'e'] then some (.boolean true)
  else if word = ['f', 'a', 'l', 's', 'e'] then some (.boolean false)
  else
    match integer? word with
    | some value => some (.integer value)
    | none =>
      if isFloat word then some (.float (String.ofList word))
      else if isTime word then some (.time (String.ofList word))
      else none

/-- A number, truth value or point in time, with the characters after it. -/
def read (chars : List Char) : Option (Value × List Char) :=
  let word := chars.takeWhile isWordChar
  let rest := chars.drop word.length
  match afterDate? word, rest with
  | some [], ' ' :: more =>
    if (more.head?.map Char.isDigit).getD false then
      let time := more.takeWhile isWordChar
      (ofWord? (word ++ 'T' :: time)).map fun value => (value, more.drop time.length)
    else (ofWord? word).map fun value => (value, rest)
  | _, _ => (ofWord? word).map fun value => (value, rest)

end EventRelay.Toml.Scalar
