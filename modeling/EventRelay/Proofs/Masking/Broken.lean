import EventRelay.Proofs.Json.RoundTrip
import EventRelay.Proofs.Masking.Text

/-!
# Strings with an escape that is cut short

An escape of four digits that a mark cuts short breaks the string it stands in, and nothing is read
from tokens with a broken string among them.
-/

namespace EventRelay

open EventRelay.Text (Symbol)
open Masking (spellingOf)

namespace Json

/-! ## Escapes that are cut short -/

namespace Lexer

/-- After a broken token there are no tokens. -/
theorem tokensFrom_stopped (rest : List Symbol) : tokensFrom .stopped rest = [] := by
  induction rest with
  | nil => rfl
  | cons symbol rest inductionHypothesis => exact inductionHypothesis

/-- Four symbols make a unit only if all of them are hexadecimal digits. -/
theorem unitOf?_eq_none {symbols : List Symbol}
    (unfit : symbols.length ≠ 4 ∨ Symbol.char '#' ∈ symbols) : unitOf? symbols = none := by
  unfold unitOf?
  split
  · rename_i d c b a
    have noDigit : Text.hexValue? '#' = none := by decide
    rcases unfit with length | marked
    · exact absurd rfl length
    · simp only [List.mem_cons, Symbol.char.injEq, List.not_mem_nil, or_false] at marked
      rcases marked with rfl | rfl | rfl | rfl <;> simp [noDigit]
  · rfl

/-- A unit that holds the mark breaks the string. -/
theorem tokensFrom_unit_of_mark (pieces : List Piece) (rest : List Symbol) {seen : List Symbol}
    (marked : Symbol.char '#' ∈ seen) :
    ∃ cause, tokensFrom (.unit pieces seen) rest = [.brokenText pieces.reverse cause] := by
  induction rest generalizing seen with
  | nil => exact ⟨_, rfl⟩
  | cons symbol rest inductionHypothesis =>
    have still : Symbol.char '#' ∈ symbol :: seen := List.mem_cons_of_mem _ marked
    rw [tokensFrom_cons, step]
    simp only [unitOf?_eq_none (.inr still)]
    split
    · exact inductionHypothesis still
    · exact ⟨_, by rw [tokensFrom_stopped, List.append_nil]⟩

/-- A unit that is cut short by the mark breaks the string. -/
theorem tokensFrom_unit_cut (pieces : List Piece) (seen : List Symbol) (digits rest : List Char)
    (short : seen.length + digits.length < 4) :
    ∃ cause, tokensFrom (.unit pieces seen) (symbolsOf (digits ++ '#' :: rest)) =
      [.brokenText pieces.reverse cause] := by
  induction digits generalizing seen with
  | nil =>
    rw [List.nil_append, symbolsOf_cons, tokensFrom_cons, step]
    simp only [unitOf?_eq_none (.inr List.mem_cons_self)]
    split
    · exact tokensFrom_unit_of_mark pieces _ List.mem_cons_self
    · exact ⟨_, by rw [tokensFrom_stopped, List.append_nil]⟩
  | cons digit digits inductionHypothesis =>
    rw [List.length_cons] at short
    have few : (Symbol.char digit :: seen).length ≠ 4 := by
      rw [List.length_cons]
      omega
    rw [List.cons_append, symbolsOf_cons, tokensFrom_cons, step]
    simp only [unitOf?_eq_none (.inl few)]
    split
    · exact inductionHypothesis _ (by rw [List.length_cons]; omega)
    · exact ⟨_, by rw [tokensFrom_stopped, List.append_nil]⟩

/-- The symbols that spell characters inside a string are those of their pieces. -/
theorem symbolsOf_flatMap_spellingOf (chars : List Char) :
    symbolsOf (chars.flatMap spellingOf) = (chars.map Piece.ofChar).flatMap Piece.spelling := by
  have each : ∀ c : Char, symbolsOf (spellingOf c) = (Piece.ofChar c).spelling := by
    intro c
    refine symbolsOf_filterMap fun symbol inside => ?_
    have encoded := encoded_text (String.singleton c) symbol
    simp only [Token.spelling, piecesOf] at encoded
    exact encoded (by simp [inside])
  induction chars with
  | nil => rfl
  | cons c rest inductionHypothesis =>
    rw [List.flatMap_cons, symbolsOf_append, each, inductionHypothesis, List.map_cons,
      List.flatMap_cons]

/-- A string that ends in an escape which is cut short is a broken token, and the last one. -/
theorem tokensFrom_cut (chars digits rest : List Char) (short : digits.length < 4) :
    ∃ pieces cause, tokensFrom .between (symbolsOf
      ('"' :: (chars.flatMap spellingOf ++ '\\' :: 'u' :: (digits ++ '#' :: rest)))) =
        [.brokenText pieces cause] := by
  have proper : ∀ piece ∈ chars.map Piece.ofChar, piece.Proper :=
    List.forall_mem_map.mpr fun c _ => Piece.proper_ofChar c
  have opened : step .between (.char '"') = ([], .text []) := rfl
  have escape : ∀ pieces, step (.text pieces) (.char '\\') = ([], .escape pieces) := fun _ => rfl
  have letter : ∀ pieces, step (.escape pieces) (.char 'u') = ([], .unit pieces []) := fun _ => rfl
  rw [symbolsOf_cons, tokensFrom_cons_of_step opened, symbolsOf_append,
    symbolsOf_flatMap_spellingOf, tokensFrom_pieces proper, symbolsOf_cons, symbolsOf_cons,
    tokensFrom_cons_of_step (escape _), tokensFrom_cons_of_step (letter _)]
  obtain ⟨cause, broken⟩ := tokensFrom_unit_cut
    ((chars.map Piece.ofChar).reverse ++ []) [] digits rest (by simpa using short)
  exact ⟨_, cause, broken⟩

end Lexer

/-! ## Broken strings are refused -/

/-- A broken string is refused wherever it stands. -/
theorem Reader.step_brokenText (room : Nat) (state : Reader.State) (pieces : List Piece)
    (cause : TextBreak) :
    ∃ problem, Reader.step room state (.brokenText pieces cause) = .error problem := by
  obtain ⟨problem, refused⟩ : ∃ problem, textOf (.broken cause) pieces = .error problem := by
    cases outcome : textOf (.broken cause) pieces with
    | error problem => exact ⟨problem, rfl⟩
    | ok text => exact absurd outcome (textOf_broken_ne_ok cause pieces text)
  cases state with
  | value holes | firstItem holes =>
    exact ⟨problem, by simp [Reader.step, Reader.begin, refused, Except.map]⟩
  | nextItem items holes =>
    exact ⟨problem, by simp [Reader.step, Reader.begin, refused, Except.map]⟩
  | firstName holes => exact ⟨problem, by simp [Reader.step, Reader.nameOf, refused, Except.map]⟩
  | nextName members holes =>
    exact ⟨problem, by simp [Reader.step, Reader.nameOf, refused, Except.map]⟩
  | _ => exact ⟨_, rfl⟩

/-- A broken string is in no tokens that have been read. -/
theorem Reader.brokenText_mem_rest {room : Nat} {state : Reader.State} {tokens rest : List Token}
    {value : Json} (complete : (reader room).run state tokens = .ok (value, rest))
    {pieces : List Piece} {cause : TextBreak} (broken : .brokenText pieces cause ∈ tokens) :
    .brokenText pieces cause ∈ rest := by
  induction tokens generalizing state with
  | nil => simp at broken
  | cons token others inductionHypothesis =>
    rw [Scan.run_cons] at complete
    rcases List.mem_cons.mp broken with rfl | later
    · obtain ⟨problem, refused⟩ := Reader.step_brokenText room state pieces cause
      have stepped : (reader room).step state (.brokenText pieces cause) = .error problem := refused
      rw [stepped] at complete
      simp [Scan.proceed] at complete
    · cases stepped : (reader room).step state token with
      | error problem => simp [stepped, Scan.proceed] at complete
      | ok progress =>
        rw [stepped] at complete
        cases progress with
        | going next => exact inductionHypothesis complete later
        | complete result =>
          obtain ⟨-, rfl⟩ := Prod.mk.inj (Except.ok.inj complete)
          exact later

/-- Tokens with a broken string among them are refused. -/
theorem read_ne_ok_of_brokenText {tokens : List Token} {pieces : List Piece} {cause : TextBreak}
    (broken : .brokenText pieces cause ∈ tokens) (value : Json) : read tokens ≠ .ok value := by
  intro accepted
  unfold read at accepted
  cases complete : (reader maxDepth).run (.value []) tokens with
  | error problem => simp [complete, bind, Except.bind] at accepted
  | ok outcome =>
    obtain ⟨raw, rest⟩ := outcome
    have left := Reader.brokenText_mem_rest complete broken
    have nonempty : rest.isEmpty = false := by
      simpa using List.ne_nil_of_mem left
    simp [complete, bind, Except.bind, nonempty, throw, throwThe, MonadExceptOf.throw] at accepted

end Json

end EventRelay
