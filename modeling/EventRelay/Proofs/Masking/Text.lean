import EventRelay.Json.Printer
import EventRelay.Proofs.Masking.Pattern

/-!
# Masking texts and their spelling

The patterns of personal numbers consist of digits and hyphens, and none begins with a hyphen.
Everything else in a spelled string keeps matches apart, escapes included: an escape ends with a
character that is in no match, unless it is the escape of a control character whose last
hexadecimal digit is a decimal one. Without such control characters, masking the spelling of a
string is spelling the masked string.
-/

namespace EventRelay.Masking

open EventRelay.Text (Symbol hexDigit)
open EventRelay.Json (Piece)

/-! ## Patterns of digits and hyphens -/

/-- A pattern of digits and hyphens that has a hyphen in it but begins with none. -/
structure Hyphenated (pattern : Pattern) : Prop where
  classes : ∀ accepts ∈ pattern,
    accepts = digit ∨ accepts = areaDigit ∨ accepts = exactly '-'
  hyphen : exactly '-' ∈ pattern
  begins : ∀ accepts ∈ pattern.head?, accepts '-' = false

/-- Social security numbers are digits and hyphens. -/
theorem hyphenated_socialSecurity : Hyphenated socialSecurity where
  classes := by simp [socialSecurity]
  hyphen := by simp [socialSecurity]
  begins accepts first := by
    obtain rfl : digit = accepts := by simpa [socialSecurity] using first
    decide

/-- Telephone numbers are digits and hyphens. -/
theorem hyphenated_telephone : Hyphenated telephone where
  classes := by simp [telephone]
  hyphen := by simp [telephone]
  begins accepts first := by
    obtain rfl : areaDigit = accepts := by simpa [telephone] using first
    decide

/-- The digits that an area code begins with are digits. -/
theorem digit_of_areaDigit {c : Char} (area : areaDigit c = true) : digit c = true := by
  rw [areaDigit, Bool.and_eq_true, decide_eq_true_eq, decide_eq_true_eq] at area
  have low : '2'.toNat ≤ c.toNat := area.1
  have high : c.toNat ≤ '9'.toNat := area.2
  rw [digit, Text.isDecimalDigit, List.any_eq_true]
  refine ⟨0x30, by decide, ?_⟩
  rw [Bool.and_eq_true, decide_eq_true_eq, decide_eq_true_eq]
  exact ⟨le_trans (by decide) low, lt_of_le_of_lt high (by decide)⟩

/-- The mark is made of one character. -/
theorem forall_mem_mark {property : Char → Prop} : (∀ c ∈ mark, property c) ↔ property '#' := by
  simp [mark]

namespace Hyphenated

variable {pattern : Pattern} (hyphenated : Hyphenated pattern)
include hyphenated

theorem nonempty : pattern ≠ [] :=
  List.ne_nil_of_mem hyphenated.hyphen

/-- Everything else is in no match. -/
theorem inert {c : Char} (noDigit : digit c = false) (noHyphen : c ≠ '-') : pattern.Inert c := by
  intro accepts member
  rcases hyphenated.classes accepts member with rfl | rfl | rfl
  · exact noDigit
  · rw [Bool.eq_false_iff]
    intro area
    rw [digit_of_areaDigit area] at noDigit
    exact absurd noDigit Bool.true_eq_false_eq_False
  · simpa [exactly] using noHyphen

/-- There is no match without a hyphen. -/
theorem not_occursIn {chars : List Char} (plain : ∀ c ∈ chars, c ≠ '-') :
    pattern.occursIn chars = false :=
  Pattern.not_occursIn_of_refused hyphenated.hyphen fun c member => by
    simpa [exactly] using plain c member

/-- The mark begins no match. -/
theorem refuses_mark : ∀ accepts ∈ pattern.head?, accepts '#' = false := fun accepts first =>
  hyphenated.inert (by decide) (by decide) accepts (List.mem_of_head? first)

/-- Replacing leaves a text alone exactly when nothing in it matches. -/
theorem replace_eq_self_iff (chars : List Char) :
    pattern.replace mark chars = chars ↔ pattern.occursIn chars = false :=
  Pattern.replace_eq_self_iff hyphenated.nonempty hyphenated.refuses_mark chars

/-- A hyphen begins no match. -/
theorem replace_cons_hyphen (rest : List Char) :
    pattern.replace mark ('-' :: rest) = '-' :: pattern.replace mark rest :=
  Pattern.replace_cons_of_not_startsAt
    (Pattern.startsAt_eq_false_of_head hyphenated.begins hyphenated.nonempty rest)

end Hyphenated

/-! ## Masking a text -/

/-- The text with the matches of a pattern replaced by the mark. -/
def Pattern.replaceText (pattern : Pattern) (text : String) : String :=
  String.ofList (pattern.replace mark text.toList)

/-- Replacing leaves a text alone exactly when nothing in it matches. -/
theorem Hyphenated.replaceText_eq_self_iff {pattern : Pattern} (hyphenated : Hyphenated pattern)
    (text : String) :
    pattern.replaceText text = text ↔ pattern.occursIn text.toList = false := by
  rw [← hyphenated.replace_eq_self_iff, ← String.toList_inj, Pattern.replaceText,
    String.toList_ofList]

/-- A text is masked exactly when a personal number is in it, and then both patterns are replaced
in turn. -/
theorem maskChars?_eq_ite (chars : List Char) :
    maskChars? chars =
      if isPersonal chars then some (telephone.replace mark (socialSecurity.replace mark chars))
      else none := by
  have once : ∀ others, (telephone.replace? mark others).getD others =
      telephone.replace mark others := by
    intro others
    by_cases occurs : telephone.occursIn others = true
    · simp [Pattern.replace?, occurs]
    · rw [Bool.not_eq_true] at occurs
      simp [Pattern.replace?, occurs, Pattern.replace_of_not_occursIn]
  by_cases occurs : socialSecurity.occursIn chars = true
  · have replaced : socialSecurity.replace? mark chars =
        some (socialSecurity.replace mark chars) := if_pos occurs
    simp [maskChars?, isPersonal, replaced, occurs, once]
  · rw [Bool.not_eq_true] at occurs
    simp [maskChars?, isPersonal, Pattern.replace?, occurs, Pattern.replace_of_not_occursIn]

/-- A masked text has both patterns replaced in turn. -/
theorem maskText_eq : maskText = telephone.replaceText ∘ socialSecurity.replaceText := by
  funext text
  rw [maskText, maskText?, maskChars?_eq_ite]
  by_cases personal : isPersonal text.toList = true
  · simp [personal, Pattern.replaceText]
  · rw [Bool.not_eq_true] at personal
    have absent := personal
    rw [isPersonal, Bool.or_eq_false_iff] at absent
    simp [personal, Pattern.replaceText, Pattern.replace_of_not_occursIn absent.1,
      Pattern.replace_of_not_occursIn absent.2]

/-- A text is masked exactly when a personal number is in it. -/
theorem maskText?_eq_ite (text : String) :
    maskText? text = if isPersonal text.toList then some (maskText text) else none := by
  rw [maskText, maskText?, maskChars?_eq_ite]
  split <;> rfl

/-! ## The spelling of a string -/

/-- The characters that spell a character inside a string. -/
def spellingOf (c : Char) : List Char :=
  (Piece.ofChar c).spelling.filterMap Symbol.char?

/-- Holds for the control characters whose escape ends with a decimal digit, U+0000 to U+0007 and
U+0010 to U+0019. -/
def escapesToDigit (c : Char) : Bool :=
  c.toNat < 0x08 || 0x10 ≤ c.toNat && c.toNat < 0x1A

/-- The hexadecimal digits from ten on are no decimal digits. -/
theorem digit_hexDigit {n : Nat} (atLeast : 10 ≤ n) (below : n < 16) :
    digit (hexDigit n) = false := by
  interval_cases n <;> decide

theorem hexDigit_ne_hyphen {n : Nat} (below : n < 16) : hexDigit n ≠ '-' := by
  interval_cases n <;> decide

/-- No digit comes before the digit zero. -/
theorem digit_of_lt {c : Char} (low : c.toNat < 0x30) : digit c = false := by
  have bound : ∀ first ∈ Text.digitZeros, 0x30 ≤ first := by decide
  rw [digit, Text.isDecimalDigit, List.any_eq_false]
  intro first member
  have atLeast := bound first member
  simp only [Bool.and_eq_true, decide_eq_true_eq, not_and]
  omega

namespace Hyphenated

variable {pattern : Pattern} (hyphenated : Hyphenated pattern)
include hyphenated

/-- A backslash and a letter keep matches apart. -/
theorem separates_escaped {letter : Char} (noDigit : digit letter = false)
    (noHyphen : letter ≠ '-') : pattern.Separates mark ['\\', letter] :=
  Pattern.separates_enclosed mark hyphenated.nonempty
    (hyphenated.inert (by decide) (by decide)) (hyphenated.inert noDigit noHyphen) []
    (hyphenated.not_occursIn (by simp))

/-- The escape of a unit keeps matches apart, if its last digit is no decimal one. -/
theorem separates_unit {unit : UInt16} (lastDigit : 10 ≤ unit.toNat % 16) :
    pattern.Separates mark ((Piece.unit unit).spelling.filterMap Symbol.char?) := by
  have bound : unit.toNat < 65536 := unit.toNat_lt
  have small : unit.toNat % 16 < 16 := Nat.mod_lt _ (by decide)
  have inertFirst : pattern.Inert '\\' := hyphenated.inert (by decide) (by decide)
  have inertLast : pattern.Inert (hexDigit (unit.toNat % 16)) :=
    hyphenated.inert (digit_hexDigit lastDigit small) (hexDigit_ne_hyphen small)
  have absent : pattern.occursIn ['u', hexDigit (unit.toNat / 4096),
      hexDigit (unit.toNat / 256 % 16), hexDigit (unit.toNat / 16 % 16)] = false := by
    refine hyphenated.not_occursIn ?_
    simp only [List.forall_mem_cons, List.not_mem_nil, false_implies, implies_true, and_true]
    exact ⟨by decide, hexDigit_ne_hyphen (by omega), hexDigit_ne_hyphen (by omega),
      hexDigit_ne_hyphen (by omega)⟩
  exact Pattern.separates_enclosed mark hyphenated.nonempty inertFirst inertLast _ absent

/-- A character is spelled as itself, or it is in no match and its escape keeps matches apart. -/
theorem separates_spellingOf {c : Char} (plain : escapesToDigit c = false) :
    spellingOf c = [c] ∨ pattern.Inert c ∧ pattern.Separates mark (spellingOf c) := by
  rw [spellingOf, Piece.ofChar]
  split
  · rename_i special
    refine .inr ?_
    rcases special with rfl | rfl | rfl | rfl | rfl | rfl | rfl
    all_goals
      exact ⟨hyphenated.inert (by decide) (by decide),
        hyphenated.separates_escaped (by decide) (by decide)⟩
  · rename_i noSpecial
    split
    · rename_i control
      have noHyphen : c ≠ '-' := by
        rintro rfl
        simp at control
      have unit : (UInt16.ofNat c.toNat).toNat = c.toNat := by
        rw [UInt16.toNat_ofNat']
        exact Nat.mod_eq_of_lt (by omega)
      have lastDigit : 10 ≤ (UInt16.ofNat c.toNat).toNat % 16 := by
        simp only [escapesToDigit, Bool.or_eq_false_iff, Bool.and_eq_false_iff,
          decide_eq_false_iff_not] at plain
        have noBackspace : c.toNat ≠ 8 := fun same =>
          noSpecial (.inr (.inr (.inl (by rw [← Char.ofNat_toNat c, same]))))
        have noTab : c.toNat ≠ 9 := fun same =>
          noSpecial (by
            rw [← Char.ofNat_toNat c, same]
            decide)
        omega
      exact .inr ⟨hyphenated.inert (digit_of_lt (by omega)) noHyphen,
        hyphenated.separates_unit lastDigit⟩
    · exact .inl rfl

end Hyphenated

/-- Replacing in the spelling of characters is spelling what replacing makes of them. -/
theorem Hyphenated.replace_spelling {pattern : Pattern} (hyphenated : Hyphenated pattern)
    {chars : List Char} (plain : ∀ c ∈ chars, escapesToDigit c = false) :
    pattern.replace mark (chars.flatMap spellingOf) =
      (pattern.replace mark chars).flatMap spellingOf :=
  Pattern.replace_flatMap hyphenated.nonempty
    (fun c member => hyphenated.separates_spellingOf (plain c member))
    (forall_mem_mark.mpr rfl)

/-- Replacing brings in no control character. -/
theorem Pattern.plain_replaceText {pattern : Pattern} {text : String}
    (plain : ∀ c ∈ text.toList, escapesToDigit c = false) :
    ∀ c ∈ (pattern.replaceText text).toList, escapesToDigit c = false := by
  have marked : ∀ c ∈ mark, escapesToDigit c = false := forall_mem_mark.mpr rfl
  intro c member
  rw [Pattern.replaceText, String.toList_ofList] at member
  exact (mem_of_mem_replace member).elim (plain c) (marked c)

end EventRelay.Masking
