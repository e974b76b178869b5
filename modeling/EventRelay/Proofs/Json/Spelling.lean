import EventRelay.Json.Printer
import EventRelay.Proofs.Json.Number
import EventRelay.Proofs.Json.Structure

/-!
# The tokens of a value are read back from their spelling

Every number has a proper numeral, and every text has pieces that stand for it. A number inside a
value never goes on, because a comma or the end of its container follows it. What the tokens of a
value are in this respect is said once, as a predicate on lists of tokens, so that later inductions
go along the list and not into the value.
-/

namespace EventRelay

open EventRelay.Decimal (Digit)
open EventRelay.Text (Symbol)

namespace Json

/-! ## Strings -/

/-- The piece of a character stands for it. -/
theorem charsOf_ofChar (c : Char) (rest : List Piece) :
    charsOf .closed (Piece.ofChar c :: rest) = (charsOf .closed rest).map (c :: ·) := by
  unfold Piece.ofChar
  split
  · rfl
  · split
    · rename_i control
      have unit : (UInt16.ofNat c.toNat).toNat = c.toNat := by
        rw [UInt16.toNat_ofNat']
        exact Nat.mod_eq_of_lt (by omega)
      have noHigh : isHighUnit (UInt16.ofNat c.toNat) = false := by
        simp [isHighUnit, unit]
        omega
      have noLow : isLowUnit (UInt16.ofNat c.toNat) = false := by
        simp [isLowUnit, unit]
        omega
      conv_lhs => unfold charsOf
      simp [noHigh, noLow, unit, Char.ofNat_toNat]
    · rfl

/-- A text is read back from its pieces. -/
theorem textOf_piecesOf (text : String) : textOf .closed (piecesOf text) = .ok text := by
  have chars : charsOf .closed (piecesOf text) = .ok text.toList := by
    unfold piecesOf
    induction text.toList with
    | nil => rfl
    | cons c rest inductionHypothesis =>
      rw [List.map_cons, charsOf_ofChar, inductionHypothesis]
      rfl
  have encoded : (piecesOf text).all Piece.isEncoded = true := by
    rw [List.all_eq_true]
    intro piece member
    obtain ⟨c, _, rfl⟩ := List.mem_map.mp member
    unfold Piece.ofChar
    split
    · rfl
    · split <;> rfl
  simp [textOf, chars, encoded, bind, Except.bind, pure, Except.pure, String.ofList_toList]

/-- The pieces of a broken string stand for no characters. -/
theorem charsOf_broken_ne_ok (cause : TextBreak) (pieces : List Piece) (chars : List Char) :
    charsOf (.broken cause) pieces ≠ .ok chars := by
  have mapped : ∀ {outcome : Except SyntaxError (List Char)} {change : List Char → List Char},
      (∀ chars, outcome ≠ .ok chars) → ∀ chars, outcome.map change ≠ .ok chars := by
    intro outcome change refused chars
    cases outcome with
    | error problem => simp [Except.map]
    | ok value => exact absurd rfl (refused value)
  fun_induction charsOf (.broken cause) pieces generalizing chars
  case case4 inductionHypothesis => exact inductionHypothesis chars
  case case3 inductionHypothesis | case5 inductionHypothesis | case8 inductionHypothesis
      | case11 inductionHypothesis => exact mapped inductionHypothesis chars
  all_goals simp_all

/-- The pieces of a broken string stand for no text. -/
theorem textOf_broken_ne_ok (cause : TextBreak) (pieces : List Piece) (text : String) :
    textOf (.broken cause) pieces ≠ .ok text := by
  intro read
  cases outcome : charsOf (.broken cause) pieces with
  | error problem => simp [textOf, outcome, bind, Except.bind] at read
  | ok chars => exact charsOf_broken_ne_ok cause pieces chars outcome

/-! ## Tokens -/

/-- The symbols that spell a list of tokens. -/
def spellings (tokens : List Token) : List Symbol :=
  tokens.flatMap Token.spelling

@[simp] theorem spellings_cons (token : Token) (tokens : List Token) :
    spellings (token :: tokens) = token.spelling ++ spellings tokens :=
  List.flatMap_cons

/-- Holds for punctuation and words. -/
def Token.isMark : Token → Bool
  | .openArray | .closeArray | .openObject | .closeObject | .comma | .colon => true
  | .null | .boolean _ => true
  | _ => false

/-- Holds for numbers. -/
def Token.isNumber : Token → Bool
  | .number _ => true
  | _ => false

/-- Tokens as a value is written in: every string in its pieces, every number in a proper numeral,
and no number right after another one. -/
inductive Written : List Token → Prop
  | nil : Written []
  | mark {token : Token} {rest : List Token} (plain : token.isMark = true)
      (later : Written rest) : Written (token :: rest)
  | text (value : String) {rest : List Token} (later : Written rest) :
      Written (.text (piecesOf value) :: rest)
  | number {numeral : Numeral} {rest : List Token} (proper : numeral.Proper)
      (ends : ∀ token ∈ rest.head?, token.isNumber = false) (later : Written rest) :
      Written (.number numeral :: rest)

/-- Tokens that may follow those of a value. -/
structure Follows (rest : List Token) : Prop where
  written : Written rest
  ends : ∀ token ∈ rest.head?, token.isNumber = false

theorem follows_nil : Follows [] :=
  ⟨.nil, by simp⟩

theorem follows_mark {token : Token} {rest : List Token} (plain : token.isMark = true)
    (later : Written rest) : Follows (token :: rest) where
  written := .mark plain later
  ends first head := by
    obtain rfl := Option.some.inj head
    cases token <;> first | rfl | exact absurd plain (by simp [Token.isMark])

/-- The elements after the first one may follow it, where each of them may be written. -/
theorem follows_moreItems {items : List Json}
    (written : ∀ item ∈ items, ∀ rest, Follows rest → Written (item.tokens ++ rest))
    {rest : List Token} (follows : Follows rest) : Follows (tokensOfMoreItems items ++ rest) := by
  induction items with
  | nil => exact follows
  | cons item more inductionHypothesis =>
    rw [List.forall_mem_cons] at written
    rw [tokensOfMoreItems, List.cons_append, List.append_assoc]
    exact follows_mark rfl (written.1 _ (inductionHypothesis written.2))

/-- The members after the first one may follow it, where each of their values may be written. -/
theorem follows_moreMembers {members : List (String × Json)}
    (written : ∀ member ∈ members, ∀ rest, Follows rest → Written (member.2.tokens ++ rest))
    {rest : List Token} (follows : Follows rest) :
    Follows (tokensOfMoreMembers members ++ rest) := by
  induction members with
  | nil => exact follows
  | cons member more inductionHypothesis =>
    obtain ⟨name, value⟩ := member
    rw [List.forall_mem_cons] at written
    rw [tokensOfMoreMembers, List.cons_append, List.cons_append, List.cons_append,
      List.append_assoc]
    exact follows_mark rfl
      (.text name (.mark rfl (written.1 _ (inductionHypothesis written.2))))

/-- A value may be written before any tokens that may follow one. -/
theorem written_tokens_append (value : Json) {rest : List Token} (follows : Follows rest) :
    Written (value.tokens ++ rest) := by
  induction value generalizing rest with
  | null => exact .mark rfl follows.written
  | boolean value => exact .mark rfl follows.written
  | number value => exact .number value.proper_numeral follows.ends follows.written
  | text value => exact .text value follows.written
  | array items inductionHypothesis =>
    have written : ∀ item ∈ items, ∀ rest, Follows rest → Written (item.tokens ++ rest) :=
      fun item member rest => inductionHypothesis item member
    have closed : Follows (.closeArray :: rest) := follows_mark rfl follows.written
    rw [tokens, List.cons_append, List.append_assoc]
    refine .mark rfl ?_
    cases items with
    | nil => exact closed.written
    | cons item more =>
      rw [List.forall_mem_cons] at written
      rw [tokensOfItems, List.append_assoc]
      exact written.1 _ (follows_moreItems written.2 closed)
  | object members inductionHypothesis =>
    have written : ∀ member ∈ members, ∀ rest, Follows rest → Written (member.2.tokens ++ rest) :=
      fun member present rest => inductionHypothesis member present
    have closed : Follows (.closeObject :: rest) := follows_mark rfl follows.written
    rw [tokens, List.cons_append, List.append_assoc]
    refine .mark rfl ?_
    cases members with
    | nil => exact closed.written
    | cons member more =>
      obtain ⟨name, value⟩ := member
      rw [List.forall_mem_cons] at written
      rw [tokensOfMembers, List.cons_append, List.cons_append, List.append_assoc]
      exact .text name (.mark rfl (written.1 _ (follows_moreMembers written.2 closed)))

/-- The tokens of a value are written as one. -/
theorem written_tokens (value : Json) : Written value.tokens := by
  simpa using written_tokens_append value follows_nil

/-! ## Reading tokens back -/

namespace Lexer

/-- A mark is read back from its spelling. -/
theorem tokensFrom_mark {token : Token} (plain : token.isMark = true) (rest : List Symbol) :
    tokensFrom .between (token.spelling ++ rest) = token :: tokensFrom .between rest := by
  cases token with
  | openArray | closeArray | openObject | closeObject | comma | colon | null => rfl
  | boolean value => cases value <;> rfl
  | _ => exact absurd plain (by simp [Token.isMark])

/-- No number goes on at the end of the input. -/
theorem endsNumber_nil : EndsNumber [] := by
  intro symbol first
  simp at first

/-- No number goes on with a quote. -/
theorem endsNumber_quote (rest : List Symbol) : EndsNumber (.char '"' :: rest) := by
  intro symbol first
  obtain rfl : Symbol.char '"' = symbol := by simpa using first
  decide

/-- No number goes on with a mark. -/
theorem endsNumber_mark {token : Token} (plain : token.isMark = true) (rest : List Symbol) :
    EndsNumber (token.spelling ++ rest) := by
  intro symbol first
  cases token with
  | openArray | closeArray | openObject | closeObject | comma | colon | null =>
    obtain rfl := Option.some.inj first
    decide
  | boolean value => cases value <;> obtain rfl := Option.some.inj first <;> decide
  | _ => exact absurd plain (by simp [Token.isMark])

end Lexer

/-- No number goes on with written tokens that begin with none. -/
theorem Follows.endsNumber {tokens : List Token} (follows : Follows tokens) :
    Lexer.EndsNumber (spellings tokens) := by
  cases follows.written with
  | nil => exact Lexer.endsNumber_nil
  | mark plain later => exact Lexer.endsNumber_mark plain _
  | text value later => exact Lexer.endsNumber_quote _
  | number proper ends later => exact absurd (follows.ends _ rfl) (by simp [Token.isNumber])

/-- The lexer gives back written tokens. -/
theorem lex_spellings {tokens : List Token} (written : Written tokens) :
    lex (spellings tokens) = tokens := by
  unfold lex
  induction written with
  | nil => rfl
  | mark plain later inductionHypothesis =>
    rw [spellings_cons, Lexer.tokensFrom_mark plain, inductionHypothesis]
  | text value later inductionHypothesis =>
    rw [spellings_cons, Lexer.tokensFrom_text (proper_piecesOf value), inductionHypothesis]
  | number proper ends later inductionHypothesis =>
    rw [spellings_cons]
    exact (Lexer.tokensFrom_numeral proper (Follows.endsNumber ⟨later, ends⟩)).trans
      (congrArg _ inductionHypothesis)

/-- The lexer gives back the tokens that a value is written as. -/
theorem lex_tokens (value : Json) : lex (spellings value.tokens) = value.tokens :=
  lex_spellings (written_tokens value)

end Json

end EventRelay
