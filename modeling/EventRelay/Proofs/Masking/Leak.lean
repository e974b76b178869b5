import EventRelay.Proofs.Json.Depth
import EventRelay.Proofs.Masking.Broken
import EventRelay.Proofs.Masking.Remains

/-!
# Masking leaves no personal number behind

If masking cuts an escape short, the masked text is no JSON and the event is given up. In every
other case what is read from the masked text is written in strings in which nothing matches any
more. Sorting members, dropping repeated ones and reading numbers back changes nothing about the
strings.
-/

namespace EventRelay

open EventRelay.Text (Symbol)
open Masking (Remains spellingOf maskChars)

namespace Json

/-! ## The text of a masked event -/

/-- A text is determined by its pieces. -/
theorem piecesOf_injective {first second : String} (same : piecesOf first = piecesOf second) :
    first = second := by
  have read := textOf_piecesOf second
  rw [← same, textOf_piecesOf] at read
  exact Except.ok.inj read

/-- Every string of a value is one of its tokens. -/
theorem text_mem_tokens {value : Json} {text : String} (member : text ∈ value.texts) :
    .text (piecesOf text) ∈ value.tokens := by
  induction value with
  | null | boolean _ | number _ => simp [texts] at member
  | text value =>
    obtain rfl : text = value := by simpa [texts] using member
    simp [tokens]
  | array items inductionHypothesis =>
    rw [texts_array, List.mem_flatMap] at member
    obtain ⟨item, inside, found⟩ := member
    have token := inductionHypothesis item inside found
    rw [tokens]
    cases items with
    | nil => simp at inside
    | cons first more =>
      simp only [tokensOfItems, tokensOfMoreItems_eq, List.mem_cons, List.mem_append,
        List.mem_flatMap]
      rcases List.mem_cons.mp inside with rfl | later
      · exact .inr (.inl (.inl token))
      · exact .inr (.inl (.inr ⟨item, later, .inr token⟩))
  | object members inductionHypothesis =>
    rw [texts_object, List.mem_flatMap] at member
    obtain ⟨member, inside, found⟩ := member
    have token : .text (piecesOf text) ∈
        Token.text (piecesOf member.1) :: .colon :: member.2.tokens := by
      rcases List.mem_cons.mp found with rfl | later
      · exact List.mem_cons_self
      · exact List.mem_cons_of_mem _ (List.mem_cons_of_mem _ (inductionHypothesis _ inside later))
    rw [tokens]
    cases members with
    | nil => simp at inside
    | cons first more =>
      have parts : tokensOfMembers (first :: more) =
          (.text (piecesOf first.1) :: .colon :: first.2.tokens) ++ tokensOfMoreMembers more := rfl
      rw [parts, tokensOfMoreMembers_eq]
      refine List.mem_cons_of_mem _ (List.mem_append_left _ ?_)
      rcases List.mem_cons.mp inside with rfl | later
      · exact List.mem_append_left _ token
      · refine List.mem_append_right _ (List.mem_flatMap.mpr ⟨member, later, ?_⟩)
        exact List.mem_cons_of_mem _ token

section

variable {respell : List Char → List Char}

/-- A mark is spelled in the same symbols however strings are respelled. -/
theorem symbolsOf_respelled_mark {token : Token} (plain : token.isMark = true) :
    symbolsOf (token.respelled respell) = token.spelling := by
  rw [respelled_mark respell plain]
  have chars : token.respelled id = token.spelling.filterMap Symbol.char? := by
    cases token with
    | text _ => exact absurd plain (by simp [Token.isMark])
    | _ => rfl
  rw [chars, symbolsOf_filterMap (encoded_mark plain)]

/-- A string that is respelled as another one is spelled in the symbols of that one. -/
theorem symbolsOf_respelled_text {text other : String}
    (respells : respell (text.toList.flatMap spellingOf) = other.toList.flatMap spellingOf) :
    symbolsOf ((Token.text (piecesOf text)).respelled respell) =
      (Token.text (piecesOf other)).spelling := by
  rw [respelled_text, respells, List.cons_append, symbolsOf_cons, symbolsOf_append,
    Lexer.symbolsOf_flatMap_spellingOf]
  rfl

/-- No number goes on with respelled tokens that begin with none. -/
theorem endsNumber_spellWith {tokens : List Token} (follows : Follows tokens) :
    Lexer.EndsNumber (symbolsOf (spellWith respell tokens)) := by
  cases follows.written with
  | nil => exact Lexer.endsNumber_nil
  | mark plain later =>
    rw [spellWith_cons, symbolsOf_append, symbolsOf_respelled_mark plain]
    exact Lexer.endsNumber_mark plain _
  | text value later => exact Lexer.endsNumber_quote _
  | number proper ends later => exact absurd (follows.ends _ rfl) (by simp [Token.isNumber])

/-- Where the inside of every string remains a spelling or is cut, all of them remain spellings or
the text has a broken string in it. -/
theorem intact_or_broken
    (remains : ∀ chars : List Char, Remains (respell (chars.flatMap spellingOf)))
    {tokens : List Token} (written : Written tokens) :
    (∀ text, .text (piecesOf text) ∈ tokens → ∃ other : String,
        respell (text.toList.flatMap spellingOf) = other.toList.flatMap spellingOf) ∨
      ∃ pieces cause, .brokenText pieces cause ∈ lex (symbolsOf (spellWith respell tokens)) := by
  unfold lex
  induction written with
  | nil => exact .inl (by simp)
  | @mark token rest plain later inductionHypothesis =>
    rw [spellWith_cons, symbolsOf_append, symbolsOf_respelled_mark plain,
      Lexer.tokensFrom_mark plain]
    rcases inductionHypothesis with intact | ⟨pieces, cause, broken⟩
    · refine .inl fun text member => ?_
      rcases List.mem_cons.mp member with rfl | inRest
      · exact absurd plain (by simp [Token.isMark])
      · exact intact text inRest
    · exact .inr ⟨pieces, cause, List.mem_cons_of_mem _ broken⟩
  | @number numeral rest proper ends later inductionHypothesis =>
    have symbols : symbolsOf (spellWith respell (.number numeral :: rest)) =
        symbolsOf numeral.spelling ++ symbolsOf (spellWith respell rest) := by
      rw [spellWith_cons, symbolsOf_append, respelled_number]
    rw [symbols, Lexer.tokensFrom_numeral proper (endsNumber_spellWith ⟨later, ends⟩)]
    rcases inductionHypothesis with intact | ⟨pieces, cause, broken⟩
    · exact .inl fun text member => intact text (by simpa using member)
    · exact .inr ⟨pieces, cause, List.mem_cons_of_mem _ broken⟩
  | @text value rest later inductionHypothesis =>
    obtain ⟨inside, insideDef⟩ :
        ∃ inside, inside = respell (value.toList.flatMap spellingOf) := ⟨_, rfl⟩
    have remaining : Remains inside := insideDef ▸ remains value.toList
    cases remaining with
    | intact chars =>
      have respells : respell (value.toList.flatMap spellingOf) =
          (String.ofList chars).toList.flatMap spellingOf := by
        rw [String.toList_ofList, insideDef]
      rw [spellWith_cons, symbolsOf_append, symbolsOf_respelled_text respells,
        Lexer.tokensFrom_text (proper_piecesOf _)]
      rcases inductionHypothesis with intact | ⟨pieces, cause, broken⟩
      · refine .inl fun text member => ?_
        rcases List.mem_cons.mp member with same | inRest
        · obtain rfl := piecesOf_injective (Token.text.inj same)
          exact ⟨_, respells⟩
        · exact intact text inRest
      · exact .inr ⟨pieces, cause, List.mem_cons_of_mem _ broken⟩
    | cut chars digits others short noHyphen =>
      obtain ⟨pieces, cause, broken⟩ := Lexer.tokensFrom_cut chars digits
        (others ++ '"' :: spellWith respell rest) short
      refine .inr ⟨pieces, cause, ?_⟩
      rw [spellWith_cons, respelled_text, ← insideDef]
      simp only [List.append_assoc, List.cons_append, List.nil_append] at broken ⊢
      rw [broken]
      exact List.mem_singleton_self _

end

/-- The text of an event, masked, is the event's with the inside of every string masked. -/
theorem maskChars_write (event : Json) :
    maskChars event.write.toList = spellWith maskChars event.tokens := by
  have written := written_tokens event
  rw [write, String.toList_ofList, ← spellWith_id, maskChars,
    Masking.hyphenated_socialSecurity.replace_spellWith id written,
    Masking.hyphenated_telephone.replace_spellWith _ written]
  rfl

/-- A masked text that is read spells the event with its strings replaced by others in whose
spelling nothing is personal. -/
theorem masked_of_parseText {event masked : Json}
    (parsed : parseText (Masking.maskText event.write) = .ok masked) :
    ∃ change : String → String,
      (∀ text ∈ event.texts,
        Masking.isPersonal ((change text).toList.flatMap spellingOf) = false) ∧
      masked = (event.mapTexts change).reread.normal := by
  have symbols : (Masking.maskText event.write).toList = spellWith maskChars event.tokens := by
    rw [Masking.toList_maskText, maskChars_write]
  rcases intact_or_broken Masking.remains_maskChars (written_tokens event) with
    intact | ⟨pieces, cause, broken⟩
  · have each : ∀ text, ∃ other : String, text ∈ event.texts →
        maskChars (text.toList.flatMap spellingOf) = other.toList.flatMap spellingOf := by
      intro text
      by_cases member : text ∈ event.texts
      · obtain ⟨other, same⟩ := intact text (text_mem_tokens member)
        exact ⟨other, fun _ => same⟩
      · exact ⟨text, fun present => absurd present member⟩
    choose change respells using each
    refine ⟨change, fun text member => ?_, ?_⟩
    · rw [← respells text member]
      exact Masking.not_isPersonal_maskChars _
    · have written : Masking.maskText event.write = (event.mapTexts change).write := by
        rw [← String.toList_inj, symbols, spellWith_tokens respells, spellWith_id, write,
          String.toList_ofList]
      rw [written, ← parse_bytes_eq, parse_bytes_eq_ite] at parsed
      split at parsed
      · exact (Except.ok.inj parsed).symm
      · simp at parsed
  · have refused := read_ne_ok_of_brokenText broken
    rw [parseText, symbols, parseSymbols] at parsed
    cases accepted : read (lex (symbolsOf (spellWith maskChars event.tokens))) with
    | ok value => exact absurd accepted (refused value)
    | error problem =>
      have failed : read (lex ((spellWith maskChars event.tokens).map .char)) = .error problem :=
        accepted
      simp [failed, Except.map] at parsed

end Json

/-! ## What the masker gives -/

/-- Nothing matches in the text of a value where nothing matches in the spelling of its strings. -/
theorem Masking.Hyphenated.not_occursIn_write {pattern : Masking.Pattern}
    (hyphenated : Masking.Hyphenated pattern) {value : Json}
    (absent : ∀ text ∈ value.texts,
      pattern.occursIn (text.toList.flatMap spellingOf) = false) :
    pattern.occursIn value.write.toList = false := by
  have same : value.mapTexts id = value :=
    (Json.mapTexts_eq_self_iff id value).mpr fun _ _ => rfl
  have respells : ∀ text ∈ value.texts,
      (pattern.replace Masking.mark ∘ id) (text.toList.flatMap spellingOf) =
        (id text).toList.flatMap spellingOf := fun text member =>
    Masking.Pattern.replace_of_not_occursIn (absent text member)
  rw [← hyphenated.replace_eq_self_iff, Json.write, String.toList_ofList, ← Json.spellWith_id,
    hyphenated.replace_spellWith id (Json.written_tokens value), Json.spellWith_tokens respells,
    same]

/-- Nothing personal is in the text of a value where nothing is in the spelling of its strings. -/
theorem Json.not_isPersonal_write {value : Json}
    (absent : ∀ text ∈ value.texts,
      Masking.isPersonal (text.toList.flatMap spellingOf) = false) :
    Masking.isPersonal value.write.toList = false := by
  simp only [Masking.isPersonal, Bool.or_eq_false_iff] at absent ⊢
  exact ⟨Masking.hyphenated_socialSecurity.not_occursIn_write fun text member =>
      (absent text member).1,
    Masking.hyphenated_telephone.not_occursIn_write fun text member => (absent text member).2⟩

namespace Masker

/-- An event that is not masked holds no personal number in its text. -/
theorem not_holdsPersonal_of_none {event : Json} (nothing : maskEvent event = .ok none) :
    ¬ Masking.HoldsPersonal event.write := by
  rw [← Masking.isPersonal_iff]
  intro personal
  rw [maskEvent, Masking.maskText?_eq_ite, if_pos personal] at nothing
  dsimp only at nothing
  cases parsed : Json.parseText (Masking.maskText event.write) with
  | error problem => simp [parsed, Except.map, Except.mapError] at nothing
  | ok masked => simp [parsed, Except.map, Except.mapError] at nothing

/-- A masked event holds no personal number in its text either. -/
theorem not_holdsPersonal_of_some {event masked : Json}
    (given : maskEvent event = .ok (some masked)) : ¬ Masking.HoldsPersonal masked.write := by
  rw [maskEvent, Masking.maskText?_eq_ite] at given
  split at given
  · simp at given
  · rename_i text present
    split at present
    · obtain rfl := Option.some.inj present
      cases parsed : Json.parseText (Masking.maskText event.write) with
      | error problem => simp [parsed, Except.map, Except.mapError] at given
      | ok value =>
        obtain rfl : value = masked := by
          simpa [parsed, Except.map, Except.mapError] using given
        obtain ⟨change, absent, rfl⟩ := Json.masked_of_parseText parsed
        rw [← Masking.isPersonal_iff, Bool.not_eq_true]
        refine Json.not_isPersonal_write fun text member => ?_
        have kept := Json.mem_texts_of_mem_normal member
        rw [Json.reread, Json.texts_mapNumbers, Json.texts_mapTexts] at kept
        obtain ⟨source, found, rfl⟩ := List.mem_map.mp kept
        exact absent source found
    · simp at present

end Masker

end EventRelay
