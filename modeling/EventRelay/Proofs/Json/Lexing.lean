import EventRelay.Json.Lexer
import EventRelay.Json.Text
import Mathlib

/-!
# Spelled tokens are read back

The lexer gives back every token that is spelled as the printer spells it. Only a number needs to
know what follows: it is complete in a mode that is pending, and becomes a token when a symbol comes
that no number goes on with.
-/

namespace EventRelay.Json

open EventRelay.Decimal (Digit)
open EventRelay.Text (Symbol hexDigit hexValue?)

/-- A numeral that can be spelled: the whole part is zero or does not begin with it, and there is an
exponent only with digits. -/
structure Numeral.Proper (numeral : Numeral) : Prop where
  whole : numeral.whole = [Digit.zero] ∨
    ∃ first rest, numeral.whole = first :: rest ∧ first ≠ Digit.zero
  exponent : ∀ exponent ∈ numeral.exponent, exponent.digits ≠ []

/-- A piece that the lexer reads back from its spelling. -/
def Piece.Proper : Piece → Prop
  | .char c => c ≠ '"' ∧ c ≠ '\\' ∧ 0x20 ≤ c.toNat
  | .stray _ => True
  | .escaped c => escapeOf? (escapeLetter c) = some c
  | .unit _ => True

/-- The characters that spell an exponent that may be missing. -/
def exponentChars (exponent : Option Exponent) : List Char :=
  exponent.elim [] Exponent.spelling

/-- The characters that spell a fraction that may be empty. -/
def fractionChars (fraction : List Digit) : List Char :=
  if fraction.isEmpty then [] else '.' :: fraction.map Digit.char

/-- The parts of the spelling of a number. -/
theorem Numeral.spelling_eq (numeral : Numeral) :
    numeral.spelling = (if numeral.negative then ['-'] else []) ++
      (numeral.whole.map Digit.char ++
        (fractionChars numeral.fraction ++ exponentChars numeral.exponent)) := by
  unfold Numeral.spelling fractionChars exponentChars
  cases numeral.exponent <;> simp

/-- The symbols of a list of characters. -/
def symbolsOf (chars : List Char) : List Symbol :=
  chars.map .char

@[simp] theorem symbolsOf_nil : symbolsOf [] = [] := rfl

@[simp] theorem symbolsOf_cons (c : Char) (chars : List Char) :
    symbolsOf (c :: chars) = .char c :: symbolsOf chars := rfl

@[simp] theorem symbolsOf_append (first second : List Char) :
    symbolsOf (first ++ second) = symbolsOf first ++ symbolsOf second :=
  List.map_append

namespace Lexer

/-- Reading on after one symbol. -/
theorem tokensFrom_cons (mode : Mode) (symbol : Symbol) (rest : List Symbol) :
    tokensFrom mode (symbol :: rest) =
      (step mode symbol).1 ++ tokensFrom (step mode symbol).2 rest :=
  rfl

/-- A symbol that completes no token only changes the mode. -/
theorem tokensFrom_cons_of_step {mode next : Mode} {symbol : Symbol}
    (moves : step mode symbol = ([], next)) (rest : List Symbol) :
    tokensFrom mode (symbol :: rest) = tokensFrom next rest := by
  rw [tokensFrom_cons, moves, List.nil_append]

/-! ## Numbers -/

/-- The character of a digit is a digit. -/
@[simp] theorem digit?_char (digit : Digit) : digit? (.char digit.char) = some digit :=
  Digit.ofChar?_char digit

/-- Holds for symbols that begin with none that a number goes on with. -/
def EndsNumber (rest : List Symbol) : Prop :=
  ∀ symbol ∈ rest.head?, digit? symbol = none ∧ symbol ≠ .char '.' ∧ isMark symbol = false

/-- A mode in which a number is complete unless it goes on. -/
structure Pending (mode : Mode) (numeral : Numeral) : Prop where
  finishes : finish mode = [.number numeral]
  completes : ∀ symbol, digit? symbol = none → symbol ≠ .char '.' → isMark symbol = false →
    step mode symbol = complete numeral symbol

/-- A pending number becomes a token where it does not go on. -/
theorem Pending.tokensFrom {mode : Mode} {numeral : Numeral} (pending : Pending mode numeral)
    {rest : List Symbol} (ends : EndsNumber rest) :
    tokensFrom mode rest = .number numeral :: tokensFrom .between rest := by
  cases rest with
  | nil => exact pending.finishes
  | cons symbol more =>
    obtain ⟨noDigit, noPoint, noMark⟩ := ends symbol rfl
    rw [tokensFrom_cons, pending.completes symbol noDigit noPoint noMark]
    rfl

theorem pending_zero (negative : Bool) :
    Pending (.zero negative) (wholeNumeral negative [Digit.zero]) where
  finishes := rfl
  completes symbol noDigit noPoint noMark := by simp [step, afterWhole, noDigit, noPoint, noMark]

theorem pending_whole (negative : Bool) (digits : List Digit) :
    Pending (.whole negative digits) (wholeNumeral negative digits) where
  finishes := rfl
  completes symbol noDigit noPoint noMark := by simp [step, afterWhole, noDigit, noPoint, noMark]

theorem pending_fraction (negative : Bool) (whole digits : List Digit) :
    Pending (.fraction negative whole digits) (fractionNumeral negative whole digits) where
  finishes := rfl
  completes symbol noDigit noPoint noMark := by simp [step, noDigit, noMark]

theorem pending_exponent (base : Numeral) (negative : Bool) (digits : List Digit) :
    Pending (.exponent base negative digits) (exponentNumeral base negative digits) where
  finishes := rfl
  completes symbol noDigit noPoint noMark := by simp [step, noDigit]

/-- A mode that gathers digits in reverse takes a whole run of them. -/
theorem tokensFrom_digits (gather : List Digit → Mode)
    (takes : ∀ digit digits,
      step (gather digits) (.char digit.char) = ([], gather (digit :: digits)))
    (run digits : List Digit) (rest : List Symbol) :
    tokensFrom (gather digits) (symbolsOf (run.map Digit.char) ++ rest) =
      tokensFrom (gather (run.reverse ++ digits)) rest := by
  induction run generalizing digits with
  | nil => rfl
  | cons digit run inductionHypothesis =>
    rw [List.map_cons, symbolsOf_cons, List.cons_append,
      tokensFrom_cons_of_step (takes digit digits), inductionHypothesis]
    simp

/-- The end of a number, from the letter of its exponent on. -/
theorem tokensFrom_exponent {mode : Mode} {base : Numeral} (pending : Pending mode base)
    (marks : step mode (.char 'e') = ([], .mark base)) (plain : base.exponent = none)
    (exponent : Option Exponent) (filled : ∀ given ∈ exponent, given.digits ≠ [])
    {rest : List Symbol} (ends : EndsNumber rest) :
    tokensFrom mode (symbolsOf (exponentChars exponent) ++ rest) =
      .number { base with exponent } :: tokensFrom .between rest := by
  match exponent, filled with
  | none, _ =>
    obtain ⟨_, _, _, _⟩ := base
    obtain rfl := plain
    exact pending.tokensFrom ends
  | some ⟨_, []⟩, filled => exact absurd rfl (filled _ rfl)
  | some ⟨negative, digit :: digits⟩, _ =>
    have sign : step (.mark base) (.char (if negative then '-' else '+')) =
        ([], .markSign base negative) := by cases negative <;> rfl
    have begins : step (.markSign base negative) (.char digit.char) =
        ([], .exponent base negative [digit]) := by simp [step]
    have gathered := tokensFrom_digits (.exponent base negative) (fun _ _ => by simp [step])
      digits [digit] rest
    simp only [exponentChars, Option.elim_some, Exponent.spelling, List.map_cons, symbolsOf_cons,
      List.cons_append]
    rw [tokensFrom_cons_of_step marks, tokensFrom_cons_of_step sign,
      tokensFrom_cons_of_step begins, gathered, (pending_exponent base negative _).tokensFrom ends]
    simp [exponentNumeral]

/-- The end of a number, from its point on. -/
theorem tokensFrom_fraction {mode : Mode} {negative : Bool} {whole : List Digit}
    (pending : Pending mode ⟨negative, whole, [], none⟩)
    (marks : step mode (.char 'e') = ([], .mark ⟨negative, whole, [], none⟩))
    (points : step mode (.char '.') = ([], .point negative whole))
    (fraction : List Digit) (exponent : Option Exponent)
    (filled : ∀ given ∈ exponent, given.digits ≠ []) {rest : List Symbol}
    (ends : EndsNumber rest) :
    tokensFrom mode (symbolsOf (fractionChars fraction ++ exponentChars exponent) ++ rest) =
      .number ⟨negative, whole, fraction, exponent⟩ :: tokensFrom .between rest := by
  cases fraction with
  | nil => exact tokensFrom_exponent pending marks rfl exponent filled ends
  | cons digit digits =>
    have begins : step (.point negative whole) (.char digit.char) =
        ([], .fraction negative whole [digit]) := by simp [step]
    have gathered := tokensFrom_digits (.fraction negative whole) (fun _ _ => by simp [step])
      digits [digit] (symbolsOf (exponentChars exponent) ++ rest)
    have finished := tokensFrom_exponent
      (pending_fraction negative whole (digits.reverse ++ [digit])) rfl rfl exponent filled ends
    simp only [fractionChars, List.isEmpty_cons, Bool.false_eq_true, if_false, List.map_cons,
      List.cons_append, symbolsOf_cons, symbolsOf_append, List.append_assoc]
    rw [tokensFrom_cons_of_step points, tokensFrom_cons_of_step begins, gathered, finished]
    simp [fractionNumeral]

/-- A digit other than zero begins a whole part. -/
theorem step_between_digit (digit : Digit) (positive : digit ≠ Digit.zero) :
    step .between (.char digit.char) = ([], .whole false [digit]) := by
  match digit, positive with
  | 0, positive => exact absurd rfl positive
  | 1, _ | 2, _ | 3, _ | 4, _ | 5, _ | 6, _ | 7, _ | 8, _ | 9, _ => rfl

/-- A digit other than zero begins a whole part after a sign as well. -/
theorem step_sign_digit (digit : Digit) (positive : digit ≠ Digit.zero) :
    step .sign (.char digit.char) = ([], .whole true [digit]) := by
  match digit, positive with
  | 0, positive => exact absurd rfl positive
  | 1, _ | 2, _ | 3, _ | 4, _ | 5, _ | 6, _ | 7, _ | 8, _ | 9, _ => rfl

/-- The sign and the first digit lead into a mode; the spelling of the number goes on from there. -/
theorem tokensFrom_sign (first : Digit) (negative : Bool) (mode : Mode)
    (unsigned : negative = false → step .between (.char first.char) = ([], mode))
    (signed : negative = true → step .sign (.char first.char) = ([], mode))
    (rest : List Symbol) :
    tokensFrom .between
        (symbolsOf (if negative then ['-'] else []) ++ .char first.char :: rest) =
      tokensFrom mode rest := by
  cases negative with
  | false => exact tokensFrom_cons_of_step (unsigned rfl) rest
  | true =>
    have sign : step .between (.char '-') = ([], .sign) := rfl
    exact (tokensFrom_cons_of_step sign _).trans (tokensFrom_cons_of_step (signed rfl) rest)

/-- A number is read back from its spelling where it does not go on. -/
theorem tokensFrom_numeral {numeral : Numeral} (proper : numeral.Proper) {rest : List Symbol}
    (ends : EndsNumber rest) :
    tokensFrom .between (symbolsOf numeral.spelling ++ rest) =
      .number numeral :: tokensFrom .between rest := by
  obtain ⟨negative, whole, fraction, exponent⟩ := numeral
  rw [Numeral.spelling_eq]
  simp only [symbolsOf_append, List.append_assoc]
  rcases proper.whole with zero | ⟨first, more, spelled, positive⟩
  · obtain rfl : whole = [Digit.zero] := zero
    have begun := tokensFrom_sign Digit.zero negative (.zero negative) (by rintro rfl; rfl)
      (by rintro rfl; rfl)
    have finished := tokensFrom_fraction (pending_zero negative) rfl rfl fraction exponent
      proper.exponent ends
    simpa [List.append_assoc] using (begun _).trans finished
  · obtain rfl : whole = first :: more := spelled
    have begun := tokensFrom_sign first negative (.whole negative [first])
      (by rintro rfl; exact step_between_digit first positive)
      (by rintro rfl; exact step_sign_digit first positive)
    have gathered := tokensFrom_digits (.whole negative) (fun _ _ => by simp [step]) more [first]
    have complete : wholeNumeral negative (more.reverse ++ [first]) =
        ⟨negative, first :: more, [], none⟩ := by simp [wholeNumeral]
    have finished := tokensFrom_fraction
      (complete ▸ pending_whole negative (more.reverse ++ [first]))
      (complete ▸ rfl) (congrArg (fun base => ([], Mode.point negative base.whole)) complete)
      fraction exponent proper.exponent ends
    simpa [List.append_assoc] using (begun _).trans ((gathered _).trans finished)

/-! ## Strings -/

/-- A hexadecimal digit has the value that it is written for. -/
theorem hexValue?_hexDigit (n : Nat) (bound : n < 16) : hexValue? (hexDigit n) = some n := by
  interval_cases n <;> decide

/-- A hexadecimal digit takes one byte. -/
theorem utf8Size_hexDigit (n : Nat) (bound : n < 16) : (hexDigit n).utf8Size = 1 := by
  interval_cases n <;> decide

/-- A unit is read back from its four digits. -/
theorem tokensFrom_unit (pieces : List Piece) (value : UInt16) (rest : List Symbol) :
    tokensFrom (.text pieces) ((Piece.unit value).spelling ++ rest) =
      tokensFrom (.text (.unit value :: pieces)) rest := by
  have bound : value.toNat < 65536 := value.toNat_lt
  obtain ⟨a, aDef⟩ : ∃ a, a = value.toNat / 4096 := ⟨_, rfl⟩
  obtain ⟨b, bDef⟩ : ∃ b, b = value.toNat / 256 % 16 := ⟨_, rfl⟩
  obtain ⟨c, cDef⟩ : ∃ c, c = value.toNat / 16 % 16 := ⟨_, rfl⟩
  obtain ⟨d, dDef⟩ : ∃ d, d = value.toNat % 16 := ⟨_, rfl⟩
  have sum : ((a * 16 + b) * 16 + c) * 16 + d = value.toNat := by omega
  have small : a < 16 ∧ b < 16 ∧ c < 16 ∧ d < 16 := by omega
  obtain ⟨aSmall, bSmall, cSmall, dSmall⟩ := small
  have whole : unitOf? [.char (hexDigit d), .char (hexDigit c), .char (hexDigit b),
      .char (hexDigit a)] = some value := by
    simp only [unitOf?, hexValue?_hexDigit, aSmall, bSmall, cSmall, dSmall, sum,
      Option.bind_eq_bind, Option.bind_some, Option.pure_def, UInt16.ofNat_toNat]
  have escape : step (.text pieces) (.char '\\') = ([], .escape pieces) := rfl
  have letter : step (.escape pieces) (.char 'u') = ([], .unit pieces []) := rfl
  have first : step (.unit pieces []) (.char (hexDigit a)) =
      ([], .unit pieces [.char (hexDigit a)]) := by
    simp [step, unitOf?, Symbol.totalSize, Symbol.size, utf8Size_hexDigit, aSmall]
  have second : step (.unit pieces [.char (hexDigit a)]) (.char (hexDigit b)) =
      ([], .unit pieces [.char (hexDigit b), .char (hexDigit a)]) := by
    simp [step, unitOf?, Symbol.totalSize, Symbol.size, utf8Size_hexDigit, aSmall, bSmall]
  have third : step (.unit pieces [.char (hexDigit b), .char (hexDigit a)])
      (.char (hexDigit c)) =
      ([], .unit pieces [.char (hexDigit c), .char (hexDigit b), .char (hexDigit a)]) := by
    simp [step, unitOf?, Symbol.totalSize, Symbol.size, utf8Size_hexDigit, aSmall, bSmall, cSmall]
  have last : step (.unit pieces [.char (hexDigit c), .char (hexDigit b), .char (hexDigit a)])
      (.char (hexDigit d)) = ([], .text (.unit value :: pieces)) := by
    simp only [step, whole]
  simp only [Piece.spelling, ← aDef, ← bDef, ← cDef, ← dDef, List.cons_append, List.nil_append]
  rw [tokensFrom_cons_of_step escape, tokensFrom_cons_of_step letter,
    tokensFrom_cons_of_step first, tokensFrom_cons_of_step second, tokensFrom_cons_of_step third,
    tokensFrom_cons_of_step last]

/-- A proper piece is read back from its spelling. -/
theorem tokensFrom_piece {piece : Piece} (proper : piece.Proper) (pieces : List Piece)
    (rest : List Symbol) :
    tokensFrom (.text pieces) (piece.spelling ++ rest) =
      tokensFrom (.text (piece :: pieces)) rest := by
  cases piece with
  | char c =>
    obtain ⟨noQuote, noBackslash, printable⟩ := proper
    have moves : step (.text pieces) (.char c) = ([], .text (.char c :: pieces)) := by
      simp [step, Nat.not_lt.mpr printable]
    exact tokensFrom_cons_of_step moves rest
  | stray byte =>
    have moves : step (.text pieces) (.stray byte) = ([], .text (.stray byte :: pieces)) := rfl
    exact tokensFrom_cons_of_step moves rest
  | escaped c =>
    have noUnit : escapeLetter c ≠ 'u' := by
      intro letter
      have named : escapeOf? (escapeLetter c) = some c := proper
      rw [letter] at named
      exact absurd named (by simp [escapeOf?])
    have escape : step (.text pieces) (.char '\\') = ([], .escape pieces) := rfl
    have letter : step (.escape pieces) (.char (escapeLetter c)) =
        ([], .text (.escaped c :: pieces)) := by
      have named : escapeOf? (escapeLetter c) = some c := proper
      simp [step, noUnit, Symbol.char?, named]
    exact (tokensFrom_cons_of_step escape _).trans (tokensFrom_cons_of_step letter rest)
  | unit value => exact tokensFrom_unit pieces value rest

/-- The pieces of a string are read back, whatever follows them. -/
theorem tokensFrom_pieces {pieces : List Piece} (proper : ∀ piece ∈ pieces, piece.Proper)
    (before : List Piece) (rest : List Symbol) :
    tokensFrom (.text before) (pieces.flatMap Piece.spelling ++ rest) =
      tokensFrom (.text (pieces.reverse ++ before)) rest := by
  induction pieces generalizing before with
  | nil => rfl
  | cons piece pieces inductionHypothesis =>
    rw [List.forall_mem_cons] at proper
    rw [List.flatMap_cons, List.append_assoc, tokensFrom_piece proper.1,
      inductionHypothesis proper.2]
    simp

/-- A string is read back from its spelling. -/
theorem tokensFrom_text {pieces : List Piece} (proper : ∀ piece ∈ pieces, piece.Proper)
    (rest : List Symbol) :
    tokensFrom .between ((Token.text pieces).spelling ++ rest) =
      .text pieces :: tokensFrom .between rest := by
  have opened : step .between (.char '"') = ([], .text []) := rfl
  have closed : step (.text pieces.reverse) (.char '"') = ([.text pieces], .between) := by
    simp [step]
  simp only [Token.spelling, List.cons_append, List.append_assoc, List.nil_append]
  rw [tokensFrom_cons_of_step opened, tokensFrom_pieces proper, List.append_nil, tokensFrom_cons,
    closed, List.singleton_append]

end Lexer

/-- Every character is written as a proper piece. -/
theorem Piece.proper_ofChar (c : Char) : (Piece.ofChar c).Proper := by
  unfold Piece.ofChar
  split
  · rename_i special
    rcases special with rfl | rfl | rfl | rfl | rfl | rfl | rfl <;> rfl
  · rename_i plain
    split
    · trivial
    · rename_i printable
      simp only [not_or] at plain
      exact ⟨plain.1, plain.2.1, Nat.le_of_not_lt printable⟩

/-- A text is written in proper pieces. -/
theorem proper_piecesOf (text : String) : ∀ piece ∈ piecesOf text, piece.Proper := by
  intro piece member
  obtain ⟨c, _, rfl⟩ := List.mem_map.mp member
  exact Piece.proper_ofChar c

end EventRelay.Json
