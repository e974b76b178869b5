import EventRelay.Text.DecimalDigit

/-!
# Patterns of characters

A pattern is a list of character classes and matches a text that has one character of each class, in
order. Masking replaces the matches from left to right by a fixed mark; a match begins as early as
possible and matches do not overlap.
-/

namespace EventRelay.Masking

/-- A class of characters. -/
abbrev CharClass := Char → Bool

/-- A pattern of fixed length. -/
abbrev Pattern := List CharClass

namespace Pattern

/-- Whether the pattern matches the beginning of a list of characters. -/
def startsAt : Pattern → List Char → Bool
  | [], _ => true
  | _ :: _, [] => false
  | accepts :: pattern, c :: rest => accepts c && startsAt pattern rest

/-- Whether the pattern matches anywhere in a list of characters. -/
def occursIn (pattern : Pattern) : List Char → Bool
  | [] => pattern.isEmpty
  | c :: rest => pattern.startsAt (c :: rest) || occursIn pattern rest

/-- Replaces the matches after passing over so many characters, which belong to a match. -/
def replaceAfter (pattern : Pattern) (mark : List Char) : Nat → List Char → List Char
  | _, [] => []
  | skipped + 1, _ :: rest => replaceAfter pattern mark skipped rest
  | 0, c :: rest =>
    if pattern.startsAt (c :: rest) then
      mark ++ replaceAfter pattern mark (pattern.length - 1) rest
    else c :: replaceAfter pattern mark 0 rest

/-- Replaces the matches of a pattern. -/
def replace (pattern : Pattern) (mark : List Char) (chars : List Char) : List Char :=
  replaceAfter pattern mark 0 chars

/-- Replaces the matches of a pattern, if there are any. -/
def replace? (pattern : Pattern) (mark : List Char) (chars : List Char) : Option (List Char) :=
  if pattern.occursIn chars then some (pattern.replace mark chars) else none

end Pattern

/-- The decimal digits of all scripts. -/
def digit : CharClass :=
  Text.isDecimalDigit

/-- The class of one character. -/
def exactly (c : Char) : CharClass :=
  (· = c)

/-- The digits that an area code may begin with. -/
def areaDigit : CharClass := fun c =>
  '2' ≤ c && c ≤ '9'

/-- Social security numbers, such as `123-45-6789`. -/
def socialSecurity : Pattern :=
  [digit, digit, digit, exactly '-', digit, digit, exactly '-', digit, digit, digit, digit]

/-- Telephone numbers, such as `555-123-4567`. -/
def telephone : Pattern :=
  [areaDigit, digit, digit, exactly '-', digit, digit, digit, exactly '-', digit, digit, digit,
    digit]

/-- The mark that stands in place of a match. -/
def mark : List Char :=
  ['#', '#', '#']

/-- Whether a list of characters holds a personal number. -/
def isPersonal (chars : List Char) : Bool :=
  socialSecurity.occursIn chars || telephone.occursIn chars

/-- The list with the personal numbers replaced, if there are any: social security numbers
throughout, then telephone numbers. -/
def maskChars? (chars : List Char) : Option (List Char) :=
  match socialSecurity.replace? mark chars with
  | none => telephone.replace? mark chars
  | some once => some ((telephone.replace? mark once).getD once)

/-- The text with the personal numbers replaced, if there are any. -/
def maskText? (text : String) : Option String :=
  (maskChars? text.toList).map String.ofList

/-- The text with the personal numbers replaced. -/
def maskText (text : String) : String :=
  (maskText? text).getD text

end EventRelay.Masking
