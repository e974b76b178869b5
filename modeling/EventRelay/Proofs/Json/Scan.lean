import EventRelay.Json.Skim
import EventRelay.Proofs.Json.RoundTrip

/-!
# What a scan takes off a list of tokens

A scan takes a first part of the tokens and leaves the rest; which part it takes depends on that
part alone. Where one scan runs inside another, the outer one goes on with what the inner one has
left. So a text can be described by its parts, each with the scan that takes it.
-/

namespace EventRelay.Json

namespace Scan

variable {State Problem Result : Type} {scan : Scan State Problem Result}

/-- Tokens after those that a scan takes are left over with the others. -/
theorem run_append {state : State} {tokens left : List Token} {result : Result}
    (complete : scan.run state tokens = .ok (result, left)) (after : List Token) :
    scan.run state (tokens ++ after) = .ok (result, left ++ after) := by
  induction tokens generalizing state with
  | nil => simp [run] at complete
  | cons token rest inductionHypothesis =>
    rw [List.cons_append, run_cons]
    rw [run_cons] at complete
    cases stepped : scan.step state token with
    | error problem => simp [stepped, proceed] at complete
    | ok progress =>
      rw [stepped] at complete
      cases progress with
      | going next => exact inductionHypothesis complete
      | complete done =>
        obtain ⟨rfl, rfl⟩ := Prod.mk.inj (Except.ok.inj complete)
        rfl

/-- The tokens are those that a scan takes, followed by those that it leaves. -/
theorem exists_taken {state : State} {tokens left : List Token} {result : Result}
    (complete : scan.run state tokens = .ok (result, left)) :
    ∃ taken, tokens = taken ++ left ∧ scan.run state taken = .ok (result, []) := by
  induction tokens generalizing state with
  | nil => simp [run] at complete
  | cons token rest inductionHypothesis =>
    rw [run_cons] at complete
    cases stepped : scan.step state token with
    | error problem => simp [stepped, proceed] at complete
    | ok progress =>
      rw [stepped] at complete
      cases progress with
      | going next =>
        obtain ⟨taken, rfl, completeTaken⟩ := inductionHypothesis complete
        refine ⟨token :: taken, rfl, ?_⟩
        rw [run_cons, stepped]
        exact completeTaken
      | complete done =>
        obtain ⟨rfl, rfl⟩ := Prod.mk.inj (Except.ok.inj complete)
        refine ⟨[token], rfl, ?_⟩
        rw [run_cons, stepped]
        rfl

/-- What a step of an inner scan becomes for the scan around it. -/
def hosted {Inner Cause Value : Type} (lift : Cause → Problem) (going : Inner → State)
    (after : Value → State) :
    Except Cause (Progress Inner Value) → Except Problem (Progress State Result)
  | .error cause => .error (lift cause)
  | .ok (.going next) => .ok (.going (going next))
  | .ok (.complete value) => .ok (.going (after value))

/-- A scan that hands its tokens to another one while that one is going, and takes up its result
afterwards. -/
structure Hosts {Inner Cause Value : Type} (outer : Scan State Problem Result)
    (inner : Scan Inner Cause Value) (lift : Cause → Problem) (going : Inner → State)
    (after : Value → State) : Prop where
  step : ∀ state token,
    outer.step (going state) token = hosted lift going after (inner.step state token)
  endProblem : ∀ state, outer.endProblem (going state) = lift (inner.endProblem state)

/-- The outer scan goes on after the tokens that the inner one takes. -/
theorem Hosts.run_eq_ok_iff {Inner Cause Value : Type} {outer : Scan State Problem Result}
    {inner : Scan Inner Cause Value} {lift : Cause → Problem} {going : Inner → State}
    {after : Value → State} (hosts : outer.Hosts inner lift going after) {state : Inner}
    {tokens left : List Token} {result : Result} :
    outer.run (going state) tokens = .ok (result, left) ↔
      ∃ taken rest value, tokens = taken ++ rest ∧ inner.run state taken = .ok (value, []) ∧
        outer.run (after value) rest = .ok (result, left) := by
  have whole : outer.run (going state) tokens =
      match inner.run state tokens with
      | .error cause => .error (lift cause)
      | .ok (value, rest) => outer.run (after value) rest := by
    induction tokens generalizing state with
    | nil => rw [run, run, hosts.endProblem]
    | cons token rest inductionHypothesis =>
      rw [run_cons, run_cons, hosts.step]
      rcases inner.step state token with cause | next | value
      · rfl
      · exact inductionHypothesis
      · rfl
  rw [whole]
  constructor
  · intro complete
    cases ran : inner.run state tokens with
    | error cause => simp [ran] at complete
    | ok outcome =>
      obtain ⟨value, rest⟩ := outcome
      obtain ⟨taken, rfl, completeTaken⟩ := exists_taken ran
      rw [ran] at complete
      exact ⟨taken, rest, value, rfl, completeTaken, complete⟩
  · rintro ⟨taken, rest, value, rfl, completeTaken, complete⟩
    rw [run_append completeTaken rest]
    exact complete

end Scan

/-! ## Values and names -/

/-- Tokens that are read as one value with room for so many containers. -/
def Spells (room : Nat) (tokens : List Token) (value : Json) : Prop :=
  (reader room).run (.value []) tokens = .ok (value, [])

/-- Tokens that are passed over as one value. -/
def Passed (tokens : List Token) : Prop :=
  skim.run (.value []) tokens = .ok ((), [])

/-- The tokens of a value do not begin with the end of an array. -/
theorem Spells.exists_cons {room : Nat} {tokens : List Token} {value : Json}
    (spells : Spells room tokens value) :
    ∃ first rest, tokens = first :: rest ∧ first ≠ .closeArray := by
  cases tokens with
  | nil => simp [Spells, Scan.run] at spells
  | cons first rest =>
    refine ⟨first, rest, rfl, ?_⟩
    rintro rfl
    simp [Spells, Scan.run, reader, Reader.step, Reader.begin] at spells

/-- A name stands as a string that is closed. -/
theorem nameOf_eq_ok_iff {token : Token} {name : String} :
    Reader.nameOf token = .ok name ↔
      ∃ pieces, token = .text pieces ∧ textOf .closed pieces = .ok name := by
  cases token with
  | text pieces => simp [Reader.nameOf]
  | brokenText pieces cause =>
    simp only [Reader.nameOf, reduceCtorEq, false_and, exists_false, iff_false]
    exact textOf_broken_ne_ok cause pieces name
  | _ => simp [Reader.nameOf]

/-! ## Parts between commas -/

/-- Parts with a comma between any two of them. -/
def separated (parts : List (List Token)) : List Token :=
  [Token.comma].intercalate parts

/-- Parts that each follow a comma. -/
def continued (parts : List (List Token)) : List Token :=
  parts.flatMap fun part => .comma :: part

theorem continued_cons_append (part : List Token) (parts : List (List Token))
    (rest : List Token) :
    continued (part :: parts) ++ rest = .comma :: (part ++ (continued parts ++ rest)) := by
  rw [continued, List.flatMap_cons, List.append_assoc, List.cons_append]
  rfl

/-- After the first part, every part follows a comma. -/
theorem separated_cons (part : List Token) (parts : List (List Token)) :
    separated (part :: parts) = part ++ continued parts := by
  induction parts generalizing part with
  | nil => simp [separated, continued]
  | cons next rest inductionHypothesis =>
    have joined : separated (part :: next :: rest) =
        part ++ .comma :: separated (next :: rest) := by
      simp [separated]
    rw [joined, inductionHypothesis]
    rfl

end EventRelay.Json
