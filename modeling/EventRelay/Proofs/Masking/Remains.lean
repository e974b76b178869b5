import EventRelay.Proofs.Masking.Event

/-!
# What masking leaves of a string

Masking works on spelled characters, where a match may begin inside the escape of a control
character. The escape is then cut short by the mark. In every other case the spelling of a string
stays the spelling of some string, in which nothing matches any more.
-/

namespace EventRelay

open EventRelay.Text (Symbol hexDigit)
open EventRelay.Json (Piece)

namespace Masking

/-! ## The inside of a masked string -/

/-- The inside of a string as masking may leave it: the spelling of a string, or one that ends in an
escape which the mark cuts short. -/
inductive Remains : List Char → Prop
  | intact (chars : List Char) : Remains (chars.flatMap spellingOf)
  | cut (chars digits rest : List Char) (short : digits.length < 4)
      (noHyphen : ∀ c ∈ digits, c ≠ '-') :
      Remains (chars.flatMap spellingOf ++ '\\' :: 'u' :: (digits ++ '#' :: rest))

/-- More characters may be spelled before what remains. -/
theorem Remains.prepend (chars : List Char) {inside : List Char} (remains : Remains inside) :
    Remains (chars.flatMap spellingOf ++ inside) := by
  cases remains with
  | intact others =>
    rw [← List.flatMap_append]
    exact .intact _
  | cut others digits rest short noHyphen =>
    rw [← List.append_assoc, ← List.flatMap_append]
    exact .cut _ digits rest short noHyphen

/-- What remains may be followed by an escape that is cut short. -/
theorem Remains.append_cut {inside : List Char} (remains : Remains inside) {digits : List Char}
    (rest : List Char) (short : digits.length < 4) (noHyphen : ∀ c ∈ digits, c ≠ '-') :
    Remains (inside ++ '\\' :: 'u' :: (digits ++ '#' :: rest)) := by
  cases remains with
  | intact chars => exact .cut chars digits rest short noHyphen
  | cut chars sooner between shortSooner noHyphenSooner =>
    have cut := Remains.cut chars sooner (between ++ '\\' :: 'u' :: (digits ++ '#' :: rest))
      shortSooner noHyphenSooner
    simpa using cut

/-- Characters that are spelled as themselves. -/
theorem flatMap_spellingOf {chars : List Char} (itself : ∀ c ∈ chars, spellingOf c = [c]) :
    chars.flatMap spellingOf = chars := by
  rw [List.flatMap_congr itself, List.flatMap_singleton']

/-- A character is spelled as itself, as a backslash and a letter, or as a unit escape. -/
theorem spellingOf_cases (c : Char) :
    spellingOf c = [c] ∨
      (∃ letter, spellingOf c = ['\\', letter] ∧ digit letter = false ∧ letter ≠ '-') ∨
      ∃ digits : List Char, spellingOf c = '\\' :: 'u' :: digits ∧ digits.length = 4 ∧
        ∀ d ∈ digits, d ≠ '-' := by
  rw [spellingOf, Piece.ofChar]
  split
  · rename_i special
    refine .inr (.inl ?_)
    rcases special with rfl | rfl | rfl | rfl | rfl | rfl | rfl
    all_goals exact ⟨_, rfl, by decide, by decide⟩
  · split
    · rename_i control
      have unit : (UInt16.ofNat c.toNat).toNat < 65536 := (UInt16.ofNat c.toNat).toNat_lt
      refine .inr (.inr ⟨_, rfl, rfl, ?_⟩)
      simp only [List.filterMap_cons, Symbol.char?, List.filterMap_nil, List.forall_mem_cons,
        List.not_mem_nil, false_implies, implies_true, and_true]
      exact ⟨hexDigit_ne_hyphen (by omega), hexDigit_ne_hyphen (by omega),
        hexDigit_ne_hyphen (by omega), hexDigit_ne_hyphen (by omega)⟩
    · exact .inl rfl

namespace Hyphenated

variable {pattern : Pattern} (hyphenated : Hyphenated pattern)
include hyphenated

/-- The mark is in no match. -/
theorem inert_mark : ∀ c ∈ mark, pattern.Inert c :=
  forall_mem_mark.mpr (hyphenated.inert (by decide) (by decide))

/-- An escape keeps the matches before it apart from those after it. -/
theorem replace_append_escape (before after : List Char) (letter : Char)
    (noDigit : digit letter = false) (noHyphen : letter ≠ '-') :
    pattern.replace mark (before ++ '\\' :: letter :: after) =
      pattern.replace mark before ++ '\\' :: letter :: pattern.replace mark after := by
  have backslash := Pattern.replace_append_inert mark hyphenated.nonempty
    (hyphenated.inert (by decide) (by decide)) before (letter :: after) (c := '\\')
  rw [backslash, hyphenated.replace_cons noDigit noHyphen]

/-- Replacing in the spelling of a string leaves a spelling, or one that is cut. -/
theorem remains_replace_spelling (chars : List Char) :
    Remains (pattern.replace mark (chars.flatMap spellingOf)) := by
  -- The characters since the last escape may belong to a match that goes on.
  suffices general : ∀ plain : List Char, (∀ c ∈ plain, spellingOf c = [c]) →
      Remains (pattern.replace mark (plain ++ chars.flatMap spellingOf)) from
    general [] (by simp)
  have marked : ∀ c ∈ mark, spellingOf c = [c] := forall_mem_mark.mpr rfl
  have replaced : ∀ plain : List Char, (∀ c ∈ plain, spellingOf c = [c]) →
      (pattern.replace mark plain).flatMap spellingOf = pattern.replace mark plain :=
    fun plain same => flatMap_spellingOf fun c present =>
      (Pattern.mem_of_mem_replace present).elim (same c) (marked c)
  induction chars with
  | nil =>
    intro plain same
    rw [List.flatMap_nil, List.append_nil, ← replaced plain same]
    exact .intact _
  | cons c rest inductionHypothesis =>
    intro plain same
    have later := inductionHypothesis [] (by simp)
    rw [List.nil_append] at later
    have before : ∀ spelled, spellingOf c = spelled →
        pattern.replace mark plain ++ spelled =
          (pattern.replace mark plain ++ [c]).flatMap spellingOf := by
      rintro _ rfl
      rw [List.flatMap_append, replaced plain same, List.flatMap_singleton]
    rcases spellingOf_cases c with itself | ⟨letter, spelled, noDigit, noHyphen⟩ |
      ⟨digits, spelled, four, noHyphen⟩
    · have longer : ∀ other ∈ plain ++ [c], spellingOf other = [other] :=
        List.forall_mem_append.mpr ⟨same, List.forall_mem_singleton.mpr itself⟩
      simpa [itself] using inductionHypothesis (plain ++ [c]) longer
    · have split := hyphenated.replace_append_escape plain (rest.flatMap spellingOf) letter noDigit
        noHyphen
      have escaped := before _ spelled
      rw [List.flatMap_cons, spelled, List.cons_append, List.singleton_append, split]
      have joined := later.prepend (pattern.replace mark plain ++ [c])
      rw [← escaped] at joined
      simpa using joined
    · have split := hyphenated.replace_append_escape plain (digits ++ rest.flatMap spellingOf) 'u'
        (by decide) (by decide)
      rw [List.flatMap_cons, spelled, List.cons_append, List.cons_append, split]
      rcases Pattern.replace_append_eq_or mark digits (rest.flatMap spellingOf) with
        whole | ⟨kept, fewer, others, begins⟩
      · have escaped := before _ spelled
        have joined := later.prepend (pattern.replace mark plain ++ [c])
        rw [← escaped] at joined
        rw [whole]
        simpa using joined
      · have cut := Remains.cut (pattern.replace mark plain) (digits.take kept)
          ('#' :: '#' :: others) (by rw [List.length_take]; omega)
          fun d inside => noHyphen d (List.mem_of_mem_take inside)
        rw [replaced plain same] at cut
        rw [begins]
        exact cut

/-- Replacing in what remains leaves what may remain. -/
theorem remains_replace {inside : List Char} (remains : Remains inside) :
    Remains (pattern.replace mark inside) := by
  cases remains with
  | intact chars => exact hyphenated.remains_replace_spelling chars
  | cut chars digits rest short noHyphen =>
    have unit := hyphenated.replace_append_escape (chars.flatMap spellingOf) (digits ++ '#' :: rest)
      'u' (by decide) (by decide)
    have marked := Pattern.replace_append_inert mark hyphenated.nonempty
      (hyphenated.inert_mark '#' (by simp [mark])) digits rest
    rw [Pattern.replace_of_not_occursIn (hyphenated.not_occursIn noHyphen)] at marked
    rw [unit, marked]
    exact (hyphenated.remains_replace_spelling chars).append_cut _ short noHyphen

end Hyphenated

/-! ## Both patterns -/

/-- A list of characters with both patterns replaced in turn. -/
def maskChars (chars : List Char) : List Char :=
  telephone.replace mark (socialSecurity.replace mark chars)

theorem toList_maskText (text : String) : (maskText text).toList = maskChars text.toList := by
  simp [maskText_eq, Pattern.replaceText, maskChars]

/-- Nothing in masked characters is a personal number. -/
theorem not_isPersonal_maskChars (chars : List Char) : isPersonal (maskChars chars) = false := by
  have noSocialSecurity : socialSecurity.occursIn (maskChars chars) = false :=
    Pattern.not_occursIn_replace_of_not_occursIn hyphenated_socialSecurity.nonempty
      hyphenated_socialSecurity.inert_mark
      (Pattern.not_occursIn_replace hyphenated_socialSecurity.nonempty
        hyphenated_socialSecurity.inert_mark chars)
  have noTelephone : telephone.occursIn (maskChars chars) = false :=
    Pattern.not_occursIn_replace hyphenated_telephone.nonempty hyphenated_telephone.inert_mark _
  rw [isPersonal, noSocialSecurity, noTelephone, Bool.false_or]

/-- Masking the spelling of a string leaves a spelling, or one that is cut. -/
theorem remains_maskChars (chars : List Char) : Remains (maskChars (chars.flatMap spellingOf)) :=
  hyphenated_telephone.remains_replace (hyphenated_socialSecurity.remains_replace (.intact chars))

end Masking

end EventRelay
