import EventRelay.Proofs.Json.RoundTrip
import EventRelay.Proofs.Masking.Text

/-!
# Replacing in a written value

Replacing the matches in the text of a value replaces them inside the strings as they are spelled,
and nowhere else: quotes, punctuation and words are in no match, and a number has a hyphen only
where nothing matches. Where no escape ends with a decimal digit, that is writing the value with the
matches in its strings replaced, and the text of the value holds a match exactly when one of its
strings does.
-/

namespace EventRelay

open EventRelay.Text (Symbol)
open EventRelay.Masking (Pattern Hyphenated mark spellingOf escapesToDigit)

namespace Json

/-- A value with integers only and no control character in its strings whose escape ends with a
decimal digit. -/
structure Plain (value : Json) : Prop where
  integers : ∀ number ∈ value.numbers, number.isInteger = true
  texts : ∀ text ∈ value.texts, ∀ c ∈ text.toList, escapesToDigit c = false

theorem Plain.readable {value : Json} (plain : value.Plain) : value.Readable :=
  readable_of_integers plain.integers

/-- Replacing matches keeps a value plain. -/
theorem Plain.mapTexts {value : Json} (plain : value.Plain) (pattern : Pattern) :
    (value.mapTexts pattern.replaceText).Plain where
  integers := by simpa using plain.integers
  texts := by
    rw [texts_mapTexts, List.forall_mem_map]
    exact fun text member => Pattern.plain_replaceText (plain.texts text member)

/-! ## Tokens with their strings respelled -/

/-- The characters that spell a token, the inside of a string respelled. -/
def Token.respelled (respell : List Char → List Char) : Token → List Char
  | .text pieces =>
    '"' :: respell ((pieces.flatMap Piece.spelling).filterMap Symbol.char?) ++ ['"']
  | token => token.spelling.filterMap Symbol.char?

/-- The characters that spell a list of tokens, the inside of every string respelled. -/
def spellWith (respell : List Char → List Char) (tokens : List Token) : List Char :=
  tokens.flatMap (Token.respelled respell)

section

variable {respell : List Char → List Char}

@[simp] theorem spellWith_nil : spellWith respell [] = [] := rfl

@[simp] theorem spellWith_cons (token : Token) (tokens : List Token) :
    spellWith respell (token :: tokens) = token.respelled respell ++ spellWith respell tokens :=
  List.flatMap_cons

@[simp] theorem spellWith_append (first second : List Token) :
    spellWith respell (first ++ second) = spellWith respell first ++ spellWith respell second :=
  List.flatMap_append

theorem spellWith_flatMap {α : Type} (items : List α) (tokensOf : α → List Token) :
    spellWith respell (items.flatMap tokensOf) =
      items.flatMap fun item => spellWith respell (tokensOf item) :=
  List.flatMap_assoc

/-- A string is spelled between quotes, character by character. -/
@[simp] theorem respelled_text (text : String) :
    (Token.text (piecesOf text)).respelled respell =
      '"' :: respell (text.toList.flatMap spellingOf) ++ ['"'] := by
  have pieces : text.toList.flatMap (fun c => (Piece.ofChar c).spelling.filterMap Symbol.char?) =
      text.toList.flatMap spellingOf := rfl
  simp [Token.respelled, piecesOf, List.filterMap_flatMap, List.flatMap_map, pieces]

/-- A number is spelled by its numeral. -/
@[simp] theorem respelled_number (numeral : Numeral) :
    (Token.number numeral).respelled respell = numeral.spelling := by
  simp [Token.respelled, Token.spelling, List.filterMap_map, Function.comp_def, Symbol.char?]

/-- A mark is spelled alike however strings are respelled. -/
theorem respelled_mark (respell : List Char → List Char) {token : Token}
    (plain : token.isMark = true) :
    token.respelled respell = token.respelled id := by
  cases token with
  | text _ => exact absurd plain (by simp [Token.isMark])
  | _ => rfl

end

/-- Tokens are spelled by leaving the inside of strings as it is. -/
theorem spellWith_id (tokens : List Token) : spellWith id tokens = spell tokens := by
  have each : ∀ token : Token, token.respelled id = token.spelling.filterMap Symbol.char? := by
    intro token
    cases token with
    | text pieces => simp [Token.respelled, Token.spelling, Symbol.char?]
    | _ => rfl
  rw [spellWith, spell, List.filterMap_flatMap]
  exact List.flatMap_congr fun token _ => each token

/-- The elements after the first one, each with a comma before it. -/
theorem tokensOfMoreItems_eq (items : List Json) :
    tokensOfMoreItems items = items.flatMap fun item => .comma :: item.tokens := by
  induction items with
  | nil => rfl
  | cons item more inductionHypothesis =>
    rw [tokensOfMoreItems, inductionHypothesis, List.flatMap_cons, List.cons_append]

/-- The members after the first one, each with a comma before it. -/
theorem tokensOfMoreMembers_eq (members : List (String × Json)) :
    tokensOfMoreMembers members =
      members.flatMap fun member =>
        .comma :: .text (piecesOf member.1) :: .colon :: member.2.tokens := by
  induction members with
  | nil => rfl
  | cons member more inductionHypothesis =>
    rw [tokensOfMoreMembers, inductionHypothesis, List.flatMap_cons]
    rfl

/-- Respelling every string of a value as the spelling of another one writes the value with its
strings replaced. -/
theorem spellWith_tokens {respell : List Char → List Char} {change : String → String}
    {value : Json}
    (respells : ∀ text ∈ value.texts,
      respell (text.toList.flatMap spellingOf) = (change text).toList.flatMap spellingOf) :
    spellWith respell value.tokens = spellWith id (value.mapTexts change).tokens := by
  induction value with
  | null => rfl
  | boolean value => rfl
  | number value => simp [tokens, mapTexts]
  | text value => simp [tokens, mapTexts, respells value (by simp [texts])]
  | array items inductionHypothesis =>
    have each : ∀ item ∈ items,
        spellWith respell item.tokens = spellWith id (item.mapTexts change).tokens :=
      fun item member => inductionHypothesis item member fun text found =>
        respells text (mem_texts_array member found)
    rw [mapTexts_array, tokens, tokens]
    cases items with
    | nil => rfl
    | cons item more =>
      rw [List.forall_mem_cons] at each
      have later : (more.flatMap fun item => spellWith respell (.comma :: item.tokens)) =
          more.flatMap fun item => spellWith id (.comma :: (item.mapTexts change).tokens) :=
        List.flatMap_congr fun item member => by
          rw [spellWith_cons, spellWith_cons, each.2 item member]
          rfl
      simp only [List.map_cons, tokensOfItems, tokensOfMoreItems_eq, spellWith_cons,
        spellWith_append, spellWith_flatMap, List.flatMap_map, each.1] at later ⊢
      rw [later]
      rfl
  | object members inductionHypothesis =>
    have each : ∀ member ∈ members,
        spellWith respell (.text (piecesOf member.1) :: .colon :: member.2.tokens) =
          spellWith id (.text (piecesOf (change member.1)) :: .colon ::
            (member.2.mapTexts change).tokens) := by
      intro member present
      have value := inductionHypothesis member present fun text found =>
        respells text (mem_texts_object present (List.mem_cons_of_mem _ found))
      simp only [spellWith_cons, respelled_text, value,
        respells member.1 (mem_texts_object present List.mem_cons_self)]
      rfl
    rw [mapTexts_object, tokens, tokens]
    cases members with
    | nil => rfl
    | cons member more =>
      rw [List.forall_mem_cons] at each
      have later : (more.flatMap fun member => spellWith respell
          (.comma :: .text (piecesOf member.1) :: .colon :: member.2.tokens)) =
            more.flatMap fun member => spellWith id
              (.comma :: .text (piecesOf (change member.1)) :: .colon ::
                (member.2.mapTexts change).tokens) :=
        List.flatMap_congr fun member present => by
          rw [spellWith_cons, spellWith_cons .comma, each.2 member present]
          rfl
      rw [spellWith_cons, spellWith_cons, List.map_cons, tokensOfMembers, tokensOfMembers,
        tokensOfMoreMembers_eq, tokensOfMoreMembers_eq, spellWith_append, spellWith_append,
        ← List.cons_append, ← List.cons_append, ← List.cons_append, ← List.cons_append,
        spellWith_append, spellWith_append, spellWith_flatMap, spellWith_flatMap, List.flatMap_map,
        each.1, later]
      rfl

end Json

namespace Masking.Hyphenated

open Json

variable {pattern : Pattern} (hyphenated : Hyphenated pattern)
include hyphenated

/-! ## The parts of a written value -/

/-- Punctuation and the letters of words stay. -/
theorem replace_cons {c : Char} (noDigit : digit c = false) (noHyphen : c ≠ '-')
    (rest : List Char) : pattern.replace mark (c :: rest) = c :: pattern.replace mark rest := by
  simpa using Pattern.replace_append_inert mark hyphenated.nonempty
    (hyphenated.inert noDigit noHyphen) [] rest

/-- A word stays. -/
theorem replace_word (word : List Char) (letters : word.all fun c => !digit c && c != '-')
    (rest : List Char) :
    pattern.replace mark (word ++ rest) = word ++ pattern.replace mark rest := by
  induction word with
  | nil => rfl
  | cons c word inductionHypothesis =>
    rw [List.all_cons, Bool.and_eq_true, Bool.and_eq_true, Bool.not_eq_true', bne_iff_ne]
      at letters
    rw [List.cons_append, hyphenated.replace_cons letters.1.1 letters.1.2,
      inductionHypothesis letters.2, List.cons_append]

/-- A mark stays. -/
theorem replace_mark {token : Token} (plain : token.isMark = true) (rest : List Char) :
    pattern.replace mark (token.respelled id ++ rest) =
      token.respelled id ++ pattern.replace mark rest := by
  refine hyphenated.replace_word _ ?_ rest
  cases token with
  | openArray | closeArray | openObject | closeObject | comma | colon | null => decide
  | boolean value => cases value <;> decide
  | _ => exact absurd plain (by simp [Token.isMark])

/-- The matches in a text are independent of any text before it. -/
def Apart (_ : Hyphenated pattern) (rest : List Char) : Prop :=
  ∀ before, pattern.replace mark (before ++ rest) =
    pattern.replace mark before ++ pattern.replace mark rest

theorem apart_nil : hyphenated.Apart [] := fun before => by simp

theorem apart_cons {c : Char} (noDigit : digit c = false) (noHyphen : c ≠ '-')
    (rest : List Char) : hyphenated.Apart (c :: rest) := fun before => by
  rw [hyphenated.replace_cons noDigit noHyphen]
  exact Pattern.replace_append_inert mark hyphenated.nonempty
    (hyphenated.inert noDigit noHyphen) before rest

/-- Tokens that begin with no number are apart from what comes before them. -/
theorem apart_spellWith (respell : List Char → List Char) {tokens : List Token}
    (follows : Follows tokens) : hyphenated.Apart (spellWith respell tokens) := by
  cases follows.written with
  | nil => exact hyphenated.apart_nil
  | @mark token rest plain later =>
    rw [spellWith_cons]
    cases token with
    | openArray | closeArray | openObject | closeObject | comma | colon | null =>
      exact hyphenated.apart_cons (by decide) (by decide) _
    | boolean value => cases value <;> exact hyphenated.apart_cons (by decide) (by decide) _
    | _ => exact absurd plain (by simp [Token.isMark])
  | text value later =>
    rw [spellWith_cons, respelled_text]
    exact hyphenated.apart_cons (by decide) (by decide) _
  | number proper ends later => exact absurd (follows.ends _ rfl) (by simp [Token.isNumber])

/-! ## Numbers -/

/-- Nothing in digits matches. -/
theorem replace_digits (digits : List Decimal.Digit) :
    pattern.replace mark (digits.map Decimal.Digit.char) = digits.map Decimal.Digit.char := by
  have noHyphen : ∀ digit : Decimal.Digit, digit.char ≠ '-' := by decide
  refine Pattern.replace_of_not_occursIn (hyphenated.not_occursIn ?_)
  rw [List.forall_mem_map]
  exact fun digit _ => noHyphen digit

/-- Nothing in an exponent matches, and it is apart from the digits before it. -/
theorem replace_exponentChars (exponent : Option Exponent) :
    pattern.replace mark (exponentChars exponent) = exponentChars exponent ∧
      hyphenated.Apart (exponentChars exponent) := by
  cases exponent with
  | none => exact ⟨Pattern.replace_nil, hyphenated.apart_nil⟩
  | some exponent =>
    refine ⟨?_, hyphenated.apart_cons (by decide) (by decide) _⟩
    rw [exponentChars, Option.elim_some, Exponent.spelling,
      hyphenated.replace_cons (by decide) (by decide)]
    split
    · rw [hyphenated.replace_cons_hyphen, hyphenated.replace_digits]
    · rw [hyphenated.replace_cons (by decide) (by decide), hyphenated.replace_digits]

/-- Nothing in a fraction and an exponent matches, and they are apart from the digits before
them. -/
theorem replace_fractionChars (fraction : List Decimal.Digit) (exponent : Option Exponent) :
    pattern.replace mark (fractionChars fraction ++ exponentChars exponent) =
        fractionChars fraction ++ exponentChars exponent ∧
      hyphenated.Apart (fractionChars fraction ++ exponentChars exponent) := by
  obtain ⟨same, apart⟩ := hyphenated.replace_exponentChars exponent
  unfold fractionChars
  split
  · exact ⟨same, apart⟩
  · refine ⟨?_, hyphenated.apart_cons (by decide) (by decide) _⟩
    rw [List.cons_append, hyphenated.replace_cons (by decide) (by decide), apart,
      hyphenated.replace_digits, same]

/-- Nothing in a number matches: a hyphen in it comes first or after the letter of the exponent. -/
theorem replace_numeral (numeral : Numeral) :
    pattern.replace mark numeral.spelling = numeral.spelling := by
  obtain ⟨same, apart⟩ := hyphenated.replace_fractionChars numeral.fraction numeral.exponent
  have unsigned : pattern.replace mark (numeral.whole.map Decimal.Digit.char ++
      (fractionChars numeral.fraction ++ exponentChars numeral.exponent)) =
        numeral.whole.map Decimal.Digit.char ++
          (fractionChars numeral.fraction ++ exponentChars numeral.exponent) := by
    rw [apart, hyphenated.replace_digits, same]
  rw [Numeral.spelling_eq]
  split
  · rw [List.singleton_append, hyphenated.replace_cons_hyphen, unsigned]
  · exact unsigned

/-! ## Whole values -/

/-- Replacing in written tokens is replacing inside their strings. -/
theorem replace_spellWith (respell : List Char → List Char) {tokens : List Token}
    (written : Written tokens) :
    pattern.replace mark (spellWith respell tokens) =
      spellWith (pattern.replace mark ∘ respell) tokens := by
  induction written with
  | nil => exact Pattern.replace_nil
  | mark plain later inductionHypothesis =>
    rw [spellWith_cons, spellWith_cons, respelled_mark respell plain,
      respelled_mark (pattern.replace mark ∘ respell) plain, hyphenated.replace_mark plain,
      inductionHypothesis]
  | text value later inductionHypothesis =>
    rw [spellWith_cons, spellWith_cons, respelled_text, respelled_text, List.append_assoc,
      List.cons_append, hyphenated.replace_cons (by decide) (by decide), List.singleton_append,
      Pattern.replace_append_inert mark hyphenated.nonempty
        (hyphenated.inert (by decide) (by decide)), inductionHypothesis]
    simp
  | number proper ends later inductionHypothesis =>
    rw [spellWith_cons, spellWith_cons, respelled_number, respelled_number,
      hyphenated.apart_spellWith respell ⟨later, ends⟩, hyphenated.replace_numeral,
      inductionHypothesis]

/-- Replacing in the text of a plain value writes the value with its strings replaced. -/
theorem replaceText_write {value : Json} (plain : value.Plain) :
    pattern.replaceText value.write = (value.mapTexts pattern.replaceText).write := by
  have respells : ∀ text ∈ value.texts,
      (pattern.replace mark ∘ id) (text.toList.flatMap spellingOf) =
        (pattern.replaceText text).toList.flatMap spellingOf := by
    intro text member
    rw [Pattern.replaceText, String.toList_ofList]
    exact hyphenated.replace_spelling (plain.texts text member)
  rw [Pattern.replaceText, write, String.toList_ofList, write, ← spellWith_id, ← spellWith_id,
    hyphenated.replace_spellWith id (written_tokens value), spellWith_tokens respells]

/-- A pattern occurs in the text of a value exactly where it occurs in one of its strings. -/
theorem occursIn_write {value : Json} (plain : value.Plain) (shallow : value.depth ≤ maxDepth) :
    pattern.occursIn value.write.toList =
      value.texts.any fun text => pattern.occursIn text.toList := by
  rw [← Bool.not_inj_iff, Bool.eq_iff_iff, Bool.not_eq_true', Bool.not_eq_true',
    List.any_eq_false]
  have absent : ∀ text : String, pattern.occursIn text.toList = false ↔
      pattern.replaceText text = text := fun text => (hyphenated.replaceText_eq_self_iff text).symm
  simp only [Bool.not_eq_true, absent]
  rw [hyphenated.replaceText_write plain, ← mapTexts_eq_self_iff]
  refine ⟨fun same => ?_, fun same => by rw [same]⟩
  exact write_injective (plain.mapTexts pattern).readable
    ((depth_mapTexts_le _ value).trans shallow)
    plain.readable shallow same

end Masking.Hyphenated

end EventRelay
