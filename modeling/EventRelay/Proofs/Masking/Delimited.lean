import EventRelay.Proofs.Masking.Remains

/-!
# Delimited numbers

No match goes beyond a character that is neither a digit nor a hyphen. So a number between two such
characters is replaced as a whole, and the texts on its two sides are masked as if each of them
stood alone. The delimiters are needed: a number may otherwise lend its first digits to a match that
begins before it.
-/

namespace EventRelay.Masking

/-- A character that is in no personal number. -/
def Delimits (c : Char) : Prop :=
  digit c = false ∧ c ≠ '-'

instance (c : Char) : Decidable (Delimits c) :=
  inferInstanceAs (Decidable (_ ∧ _))

/-- A text of the shape of a personal number. -/
def IsNumber (text : String) : Prop :=
  ∃ pattern ∈ [socialSecurity, telephone], pattern.Matches text.toList

instance (pattern : Pattern) (chars : List Char) : Decidable (pattern.Matches chars) :=
  inferInstanceAs (Decidable (List.Forall₂ _ pattern chars))

instance (text : String) : Decidable (IsNumber text) :=
  inferInstanceAs (Decidable (∃ pattern ∈ [socialSecurity, telephone], _))

/-- Two texts with a gap between them that delimiters enclose, unless a text is empty. -/
structure Delimited (before after : List Char) : Prop where
  ends : ∀ c ∈ before.getLast?, Delimits c
  begins : ∀ c ∈ after.head?, Delimits c

/-! ## One pattern -/

namespace Pattern

variable {pattern : Pattern}

/-- Each class of a pattern accepts the character of a match that stands in its place. -/
theorem Matches.accepts {chars : List Char} (matched : pattern.Matches chars) {place : Nat}
    {accepts : CharClass} {c : Char} (wanted : pattern[place]? = some accepts)
    (held : chars[place]? = some c) : accepts c = true := by
  induction matched generalizing place with
  | nil => simp at wanted
  | cons first rest inductionHypothesis =>
    cases place with
    | zero =>
      obtain rfl := Option.some.inj wanted
      obtain rfl := Option.some.inj held
      exact first
    | succ place => exact inductionHypothesis wanted held

/-- Nothing is left when the rest of a match reaches to the end. -/
theorem replaceAfter_of_length_le (mark : List Char) {skipped : Nat} {chars : List Char}
    (short : chars.length ≤ skipped) : pattern.replaceAfter mark skipped chars = [] := by
  induction chars generalizing skipped with
  | nil => rw [replaceAfter]
  | cons c rest inductionHypothesis =>
    cases skipped with
    | zero => simp at short
    | succ skipped =>
      rw [replaceAfter]
      exact inductionHypothesis (Nat.le_of_succ_le_succ short)

/-- A match is replaced by the mark. -/
theorem replace_of_matches (mark : List Char) (nonempty : pattern ≠ []) {chars : List Char}
    (matched : pattern.Matches chars) : pattern.replace mark chars = mark := by
  have length : pattern.length = chars.length := matched.length_eq
  have starts : pattern.startsAt chars = true :=
    (pattern.startsAt_iff chars).mpr ⟨chars, [], (List.append_nil _).symm, matched⟩
  cases chars with
  | nil => exact absurd (List.length_eq_zero_iff.mp length) nonempty
  | cons c rest =>
    rw [List.length_cons] at length
    rw [replace, replaceAfter, if_pos starts, replaceAfter_of_length_le mark (by omega),
      List.append_nil]

end Pattern

namespace Hyphenated

variable {pattern : Pattern} (hyphenated : Hyphenated pattern)
include hyphenated

theorem inert_of_delimits {c : Char} (delimits : Delimits c) : pattern.Inert c :=
  hyphenated.inert delimits.1 delimits.2

/-- Replacing leaves a delimiter at the end where it is and reaches over it on neither side. -/
theorem replace_append_of_ends {before : List Char} (ends : ∀ c ∈ before.getLast?, Delimits c)
    (after : List Char) :
    pattern.replace mark (before ++ after) =
        pattern.replace mark before ++ pattern.replace mark after ∧
      (pattern.replace mark before).getLast? = before.getLast? := by
  rcases List.eq_nil_or_concat' before with rfl | ⟨front, last, rfl⟩
  · simp
  · have inert : pattern.Inert last := hyphenated.inert_of_delimits (ends last (by simp))
    have whole := Pattern.replace_append_inert mark hyphenated.nonempty inert front after
    have alone := Pattern.replace_append_inert mark hyphenated.nonempty inert front []
    rw [Pattern.replace_nil] at alone
    rw [alone, List.append_assoc, List.singleton_append, whole]
    simp

/-- Replacing leaves a delimiter at the beginning where it is and reaches over it on neither
side. -/
theorem replace_append_of_begins {after : List Char} (begins : ∀ c ∈ after.head?, Delimits c)
    (before : List Char) :
    pattern.replace mark (before ++ after) =
        pattern.replace mark before ++ pattern.replace mark after ∧
      (pattern.replace mark after).head? = after.head? := by
  cases after with
  | nil => simp
  | cons c rest =>
    have inert : pattern.Inert c := hyphenated.inert_of_delimits (begins c rfl)
    have whole := Pattern.replace_append_inert mark hyphenated.nonempty inert before rest
    have alone := Pattern.replace_append_inert mark hyphenated.nonempty inert [] rest
    rw [List.nil_append, Pattern.replace_nil, List.nil_append] at alone
    rw [alone, whole]
    exact ⟨rfl, rfl⟩

end Hyphenated

namespace Delimited

variable {pattern : Pattern} {before after : List Char}

/-- What stands in the gap and what stands around it are replaced independently. -/
theorem replace_gap (delimited : Delimited before after) (hyphenated : Hyphenated pattern)
    (gap : List Char) :
    pattern.replace mark (before ++ gap ++ after) =
      pattern.replace mark before ++ pattern.replace mark gap ++ pattern.replace mark after := by
  calc pattern.replace mark (before ++ gap ++ after)
      = pattern.replace mark (before ++ gap) ++ pattern.replace mark after :=
        (hyphenated.replace_append_of_begins delimited.begins _).1
    _ = pattern.replace mark before ++ pattern.replace mark gap ++ pattern.replace mark after := by
        rw [(hyphenated.replace_append_of_ends delimited.ends gap).1]

/-- The gap stays enclosed by the same delimiters. -/
theorem replace (delimited : Delimited before after) (hyphenated : Hyphenated pattern) :
    Delimited (pattern.replace mark before) (pattern.replace mark after) where
  ends := by
    rw [(hyphenated.replace_append_of_ends delimited.ends []).2]
    exact delimited.ends
  begins := by
    rw [(hyphenated.replace_append_of_begins delimited.begins []).2]
    exact delimited.begins

end Delimited

/-! ## Both patterns -/

/-- No social security number is in a telephone number, where the hyphens are further apart. -/
theorem not_occursIn_of_telephone {chars : List Char} (number : telephone.Matches chars) :
    socialSecurity.occursIn chars = false := by
  rw [Bool.eq_false_iff]
  intro occurs
  obtain ⟨before, found, after, rfl, matched⟩ := (Pattern.occursIn_iff _ _).mp occurs
  have foundLength : 11 = found.length := matched.length_eq
  have numberLength : 12 = (before ++ found ++ after).length := number.length_eq
  rw [List.length_append, List.length_append] at numberLength
  -- A hyphen of the social security number stands where the telephone number has a digit.
  have clash : ∀ place, socialSecurity[place]? = some (exactly '-') →
      telephone[before.length + place]? = some digit → False := by
    intro place hyphen other
    obtain ⟨inside, -⟩ := List.getElem?_eq_some_iff.mp hyphen
    have bound : place < found.length := by rwa [← matched.length_eq]
    have held : found[place]? = some found[place] := List.getElem?_eq_getElem bound
    have same : (before ++ found ++ after)[before.length + place]? = some found[place] := by
      rw [List.append_assoc, List.getElem?_append_right (Nat.le_add_right _ _),
        Nat.add_sub_cancel_left, List.getElem?_append_left bound, held]
    have isHyphen : found[place] = '-' := by simpa [exactly] using matched.accepts hyphen held
    have isDigit : digit found[place] = true := number.accepts other same
    rw [isHyphen] at isDigit
    exact absurd isDigit (by decide)
  have few : before.length = 0 ∨ before.length = 1 := by omega
  rcases few with none | one
  · exact clash 6 rfl (by rw [none]; rfl)
  · exact clash 3 rfl (by rw [one]; rfl)

/-- A number is masked by the mark alone. -/
theorem maskChars_number {number : String} (shaped : IsNumber number) :
    maskChars number.toList = mark := by
  obtain ⟨pattern, either, matched⟩ := shaped
  rw [List.mem_cons, List.mem_singleton] at either
  rcases either with rfl | rfl
  · have noHyphen : ∀ c ∈ mark, c ≠ '-' := forall_mem_mark.mpr (by decide)
    rw [maskChars, Pattern.replace_of_matches mark hyphenated_socialSecurity.nonempty matched]
    exact Pattern.replace_of_not_occursIn (hyphenated_telephone.not_occursIn noHyphen)
  · rw [maskChars, Pattern.replace_of_not_occursIn (not_occursIn_of_telephone matched)]
    exact Pattern.replace_of_matches mark hyphenated_telephone.nonempty matched

/-- What stands in the gap and what stands around it are masked independently. -/
theorem Delimited.maskChars_gap {before after : List Char} (delimited : Delimited before after)
    (gap : List Char) :
    maskChars (before ++ gap ++ after) = maskChars before ++ maskChars gap ++ maskChars after := by
  rw [maskChars, delimited.replace_gap hyphenated_socialSecurity,
    (delimited.replace hyphenated_socialSecurity).replace_gap hyphenated_telephone]
  rfl

/-- A delimited number is masked as a whole, and the texts on its two sides as if they stood alone.
So nothing of the number shows: any other number in its place leaves the same masked text. -/
theorem maskText_append_number {before number after : String} (shaped : IsNumber number)
    (ends : ∀ c ∈ before.toList.getLast?, Delimits c)
    (begins : ∀ c ∈ after.toList.head?, Delimits c) :
    maskText (before ++ number ++ after) = maskText before ++ "###" ++ maskText after ∧
      ∀ other, IsNumber other →
        maskText (before ++ other ++ after) = maskText (before ++ number ++ after) := by
  have hidden : ∀ any, IsNumber any →
      maskText (before ++ any ++ after) = maskText before ++ "###" ++ maskText after := by
    intro any shaped
    have delimited : Delimited before.toList after.toList := ⟨ends, begins⟩
    apply String.toList_injective
    rw [toList_maskText, String.toList_append, String.toList_append, delimited.maskChars_gap,
      maskChars_number shaped, String.toList_append, String.toList_append, toList_maskText,
      toList_maskText]
    rfl
  refine ⟨hidden number shaped, fun other otherShaped => ?_⟩
  rw [hidden other otherShaped, hidden number shaped]

/-- Numbers of both shapes in one place, with another number on either side of it. -/
theorem maskText_append_number_between_numbers :
    IsNumber "123-45-6789" ∧ IsNumber "212-555-0199" ∧
      (∀ c ∈ "321-54-9876, ".toList.getLast?, Delimits c) ∧
      (∀ c ∈ "/555-123-4567".toList.head?, Delimits c) ∧
      maskText ("321-54-9876, " ++ "123-45-6789" ++ "/555-123-4567") =
        maskText "321-54-9876, " ++ "###" ++ maskText "/555-123-4567" ∧
      maskText ("321-54-9876, " ++ "212-555-0199" ++ "/555-123-4567") =
        maskText ("321-54-9876, " ++ "123-45-6789" ++ "/555-123-4567") := by
  have first : IsNumber "123-45-6789" := by decide
  have second : IsNumber "212-555-0199" := by decide
  have ends : ∀ c ∈ "321-54-9876, ".toList.getLast?, Delimits c := by
    intro c last
    obtain rfl : ' ' = c := by simpa using last
    decide
  have begins : ∀ c ∈ "/555-123-4567".toList.head?, Delimits c := by
    intro c head
    obtain rfl : '/' = c := by simpa using head
    decide
  obtain ⟨hidden, alike⟩ := maskText_append_number first ends begins
  exact ⟨first, second, ends, begins, hidden, alike "212-555-0199" second⟩

/-- Without a delimiter the digits before a number join its first digits in a match. -/
example : maskText ("555-12-345" ++ "123-45-6789") = "###23-45-6789" := by
  decide

end EventRelay.Masking
