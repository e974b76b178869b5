import EventRelay.Proofs.Json.WellFormed
import EventRelay.Proofs.Text.Split
import Mathlib

/-!
# The tokens of texts that are joined

Between texts whose tokens are whole a comma or a brace keeps the tokens apart: a number ends there,
and every other token has ended before. So the text of an object has the tokens of its members, with
commas between them, however the members are written.
-/

namespace EventRelay.Json

open EventRelay.Text (Symbol)

/-- Holds for tokens that are not broken. -/
def Token.isWhole : Token → Bool
  | .brokenText .. | .brokenNumber _ | .brokenWord _ | .other => false
  | _ => true

/-- Only whole tokens are passed over. -/
theorem Skim.isWhole_of_step {state : State} {token : Token} {progress : Progress State Unit}
    (stepped : step state token = .ok progress) : token.isWhole = true := by
  cases token with
  | brokenText pieces cause | brokenNumber cause | brokenWord cause | other =>
    cases state with
    | afterValue inner outer => cases inner <;> cases stepped
    | _ => cases stepped
  | _ => rfl

/-- The tokens of a value that is passed over are whole. -/
theorem Passed.whole {tokens : List Token} (passed : Passed tokens) :
    ∀ token ∈ tokens, token.isWhole = true := by
  rw [Passed] at passed
  generalize Skim.State.value [] = state at passed
  induction tokens generalizing state with
  | nil => simp
  | cons token rest inductionHypothesis =>
    rw [Scan.run_cons] at passed
    cases stepped : skim.step state token with
    | error cause =>
      rw [stepped] at passed
      cases passed
    | ok progress =>
      rw [List.forall_mem_cons]
      refine ⟨Skim.isWhole_of_step stepped, ?_⟩
      rw [stepped] at passed
      cases progress with
      | going next => exact inductionHypothesis next passed
      | complete done =>
        obtain ⟨-, rfl⟩ := Prod.mk.inj (Except.ok.inj passed)
        simp

namespace Lexer

/-- A step that stops the lexer only where it gives a broken token. -/
def StopsBroken (outcome : List Token × Mode) : Prop :=
  outcome.2 = .stopped → ∃ token ∈ outcome.1, token.isWhole = false

/-- A step that goes on stops at nothing. -/
theorem stopsBroken_of_ne {outcome : List Token × Mode} (goesOn : outcome.2 ≠ .stopped) :
    StopsBroken outcome :=
  fun stops => absurd stops goesOn

theorem stopsBroken_singleton {token : Token} (broken : token.isWhole = false) (mode : Mode) :
    StopsBroken ([token], mode) :=
  fun _ => ⟨token, List.mem_singleton_self token, broken⟩

theorem stopsBroken_start (symbol : Symbol) : StopsBroken (start symbol) := by
  fun_cases start symbol
  case case1 | case19 => exact stopsBroken_singleton rfl _
  all_goals exact stopsBroken_of_ne (by simp)

theorem stopsBroken_complete (numeral : Numeral) (symbol : Symbol) :
    StopsBroken (complete numeral symbol) := by
  intro stops
  obtain ⟨token, there, broken⟩ := stopsBroken_start symbol stops
  exact ⟨token, List.mem_cons_of_mem _ there, broken⟩

theorem stopsBroken_afterWhole (numeral : Numeral) (symbol : Symbol) :
    StopsBroken (afterWhole numeral symbol) := by
  unfold afterWhole
  split
  · exact stopsBroken_of_ne (by simp)
  · split
    · exact stopsBroken_of_ne (by simp)
    · exact stopsBroken_complete numeral symbol

/-- The lexer stops at a broken token only. -/
theorem stopsBroken_step {mode : Mode} (running : mode ≠ .stopped) (symbol : Symbol) :
    StopsBroken (step mode symbol) := by
  fun_cases step mode symbol
  case case1 | case2 => exact stopsBroken_start symbol
  case case11 | case13 => exact stopsBroken_afterWhole _ symbol
  case case18 | case26 => exact stopsBroken_complete _ symbol
  case case4 | case6 | case30 | case34 | case37 => exact stopsBroken_singleton rfl _
  case case9 | case10 | case15 | case22 | case24 => exact stopsBroken_singleton rfl _
  case case38 => exact absurd rfl running
  all_goals exact stopsBroken_of_ne (by simp)

/-- Whole tokens stay as they are before anything that ends a number. -/
theorem tokensFrom_append {mode : Mode} (running : mode ≠ .stopped) {first after : List Symbol}
    (whole : ∀ token ∈ tokensFrom mode first, token.isWhole = true) (ends : EndsNumber after) :
    tokensFrom mode (first ++ after) = tokensFrom mode first ++ tokensFrom .between after := by
  induction first generalizing mode with
  | nil =>
    have finished : ∀ token ∈ finish mode, token.isWhole = true := whole
    cases mode with
    | between => rfl
    | zero negative => exact (pending_zero negative).tokensFrom ends
    | whole negative digits => exact (pending_whole negative digits).tokensFrom ends
    | fraction negative front digits =>
      exact (pending_fraction negative front digits).tokensFrom ends
    | exponent base negative digits =>
      exact (pending_exponent base negative digits).tokensFrom ends
    | stopped => exact absurd rfl running
    | _ => exact absurd (finished _ List.mem_cons_self) (by simp [Token.isWhole])
  | cons symbol rest inductionHypothesis =>
    rw [tokensFrom_cons, List.forall_mem_append] at whole
    have goesOn : (step mode symbol).2 ≠ .stopped := by
      intro stops
      obtain ⟨token, there, broken⟩ := stopsBroken_step running symbol stops
      rw [whole.1 token there] at broken
      cases broken
    rw [List.cons_append, tokensFrom_cons, tokensFrom_cons,
      inductionHypothesis goesOn whole.2, List.append_assoc]

/-- Blanks before a token are passed over. -/
theorem tokensFrom_blank {chars : List Char} (blank : ∀ c ∈ chars, c ∈ [' ', '\t', '\n', '\r'])
    (rest : List Symbol) :
    tokensFrom .between (symbolsOf chars ++ rest) = tokensFrom .between rest := by
  induction chars with
  | nil => rfl
  | cons c more inductionHypothesis =>
    rw [List.forall_mem_cons] at blank
    have stays : step .between (.char c) = ([], .between) := by
      have named := blank.1
      simp only [List.mem_cons, List.not_mem_nil, or_false] at named
      rcases named with rfl | rfl | rfl | rfl <;> rfl
    rw [symbolsOf_cons, List.cons_append, tokensFrom_cons_of_step stays,
      inductionHypothesis blank.2]

end Lexer

/-! ## Objects -/

/-- The tokens of a text. -/
def tokensOf (text : String) : List Token :=
  lex (symbolsOf text.toList)

/-- The tokens of a text are whole. -/
def IsWholeText (text : String) : Prop :=
  ∀ token ∈ tokensOf text, token.isWhole = true

/-- A text of blanks. -/
def IsBlank (text : String) : Prop :=
  ∀ c ∈ text.toList, c ∈ [' ', '\t', '\n', '\r']

/-- A text that is an object of members that are written so, with commas between them and blanks
beside the braces. -/
def IsObjectText (text : String) (members : List String) : Prop :=
  ∃ front gap back, IsBlank front ∧ IsBlank gap ∧ IsBlank back ∧
    text = front ++ "\x7b" ++ gap ++ Text.join ',' members ++ "\x7d" ++ back

/-- Whole tokens of a text stay as they are before a mark. -/
theorem IsWholeText.tokensFrom_append {text : String} (whole : IsWholeText text) {mark : Token}
    (plain : mark.isMark = true) (rest : List Symbol) :
    Lexer.tokensFrom .between (symbolsOf text.toList ++ (mark.spelling ++ rest)) =
      tokensOf text ++ mark :: Lexer.tokensFrom .between rest := by
  have apart := @Lexer.tokensFrom_append .between (by simp) _ _ whole
    (Lexer.endsNumber_mark plain rest)
  rwa [Lexer.tokensFrom_mark plain] at apart

/-- Texts that are joined by commas have their tokens, with commas between them. -/
theorem tokensFrom_join {texts : List String} (whole : ∀ text ∈ texts, IsWholeText text)
    {mark : Token} (plain : mark.isMark = true) (rest : List Symbol) :
    Lexer.tokensFrom .between
        (symbolsOf (Text.join ',' texts).toList ++ (mark.spelling ++ rest)) =
      separated (texts.map tokensOf) ++ mark :: Lexer.tokensFrom .between rest := by
  rw [Text.join, String.toList_ofList]
  induction texts with
  | nil => exact Lexer.tokensFrom_mark plain rest
  | cons text more inductionHypothesis =>
    rw [List.forall_mem_cons] at whole
    cases more with
    | nil => simpa [separated, Text.joinList] using whole.1.tokensFrom_append plain rest
    | cons next others =>
      have joined : Text.joinList ',' ((text :: next :: others).map String.toList) =
          text.toList ++ ',' :: Text.joinList ',' ((next :: others).map String.toList) := rfl
      have parts : separated ((text :: next :: others).map tokensOf) =
          tokensOf text ++ .comma :: separated ((next :: others).map tokensOf) := by
        simp [separated]
      have comma := @IsWholeText.tokensFrom_append text whole.1 .comma rfl
        (symbolsOf (Text.joinList ',' ((next :: others).map String.toList)) ++
          (mark.spelling ++ rest))
      rw [inductionHypothesis whole.2] at comma
      rw [joined, parts, symbolsOf_append, symbolsOf_cons, List.append_assoc, List.cons_append,
        List.append_assoc, List.cons_append]
      exact comma

/-- The tokens of an object are those of its members between braces, with commas between them. -/
theorem IsObjectText.tokensOf_eq {text : String} {members : List String}
    (object : IsObjectText text members) (whole : ∀ member ∈ members, IsWholeText member) :
    tokensOf text = .openObject :: (separated (members.map tokensOf) ++ [.closeObject]) := by
  obtain ⟨front, gap, back, frontBlank, gapBlank, backBlank, rfl⟩ := object
  have ended : Lexer.tokensFrom .between (symbolsOf back.toList) = [] := by
    have blanks := Lexer.tokensFrom_blank backBlank []
    rwa [List.append_nil] at blanks
  have closed := @tokensFrom_join members whole .closeObject rfl (symbolsOf back.toList)
  rw [ended] at closed
  have opened : Lexer.tokensFrom .between (.char '{' :: (symbolsOf gap.toList ++
      (symbolsOf (Text.join ',' members).toList ++ .char '}' :: symbolsOf back.toList))) =
      .openObject :: (separated (members.map tokensOf) ++ [.closeObject]) := by
    rw [Lexer.tokensFrom_cons, ← closed]
    exact congrArg _ (Lexer.tokensFrom_blank gapBlank _)
  rw [tokensOf, lex]
  simp only [String.toList_append, symbolsOf_append, List.append_assoc]
  exact (Lexer.tokensFrom_blank frontBlank _).trans opened

end EventRelay.Json
