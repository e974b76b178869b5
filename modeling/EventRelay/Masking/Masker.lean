import EventRelay.Json.Printer
import EventRelay.Json.Reader
import EventRelay.Masking.Pattern

/-!
# Masking events

An event is masked as text: it is written, the text is masked, and the result is read again. A
masked text that is no JSON any more is given up, and the event stays as it was.
-/

namespace EventRelay

/-- The masked text of an event is no JSON. -/
structure MaskError where
  cause : Json.SyntaxError
  deriving DecidableEq

namespace MaskError

/-- The wording of an error. -/
def message (problem : MaskError) : String :=
  "masked event is not valid JSON: " ++ problem.cause.message

end MaskError

/-- What a masker has done so far. -/
structure Masker where
  /-- Events that have been looked at. -/
  processed : Nat := 0
  /-- Events in which something was masked. -/
  masked : Nat := 0
  /-- Events that were given up. -/
  givenUp : Nat := 0
  deriving DecidableEq, Repr

namespace Masker

/-- The masked event, if anything had to be masked. -/
def maskEvent (event : Json) : Except MaskError (Option Json) :=
  match Masking.maskText? event.write with
  | none => .ok none
  | some text => ((Json.parseText text).map some).mapError MaskError.mk

/-- Masks an event and counts what became of it. -/
def mask (masker : Masker) (event : Json) : Except MaskError (Option Json) × Masker :=
  let seen := { masker with processed := masker.processed + 1 }
  match maskEvent event with
  | .ok none => (.ok none, seen)
  | .ok (some masked) => (.ok (some masked), { seen with masked := seen.masked + 1 })
  | .error problem => (.error problem, { seen with givenUp := seen.givenUp + 1 })

end Masker

end EventRelay
