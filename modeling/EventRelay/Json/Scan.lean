import EventRelay.Json.Token

/-!
# Machines that read tokens

A scan takes one token at a time until what it reads is complete, and leaves the tokens after that.
-/

namespace EventRelay.Json

/-- What a scan has become after one more token. -/
inductive Progress (State Result : Type)
  | going (state : State)
  | complete (result : Result)

/-- A machine that reads tokens: its step, and its error where the tokens end too early. -/
structure Scan (State Problem Result : Type) where
  step : State → Token → Except Problem (Progress State Result)
  endProblem : State → Problem

namespace Scan

variable {State Problem Result : Type}

/-- Reads tokens from a state on, and gives the result with the tokens that follow it. -/
def run (scan : Scan State Problem Result) :
    State → List Token → Except Problem (Result × List Token)
  | state, [] => .error (scan.endProblem state)
  | state, token :: rest =>
    match scan.step state token with
    | .error problem => .error problem
    | .ok (.complete result) => .ok (result, rest)
    | .ok (.going next) => scan.run next rest

end Scan

end EventRelay.Json
