import EventRelay.Masking.Pattern
import Mathlib

/-!
# Replacing the matches of a pattern

A character that no class of a pattern accepts is in no match, so the text before it and the text
after it are replaced independently. A text is left alone exactly when nothing in it matches,
provided the mark cannot begin a match.
-/

namespace EventRelay.Masking.Pattern

variable {pattern : Pattern} {mark : List Char}

/-- A character that is in no match. -/
def Inert (pattern : Pattern) (c : Char) : Prop :=
  ∀ accepts ∈ pattern, accepts c = false

/-! ## Matches at the beginning -/

/-- A match at the beginning has as many characters as the pattern has classes. -/
theorem length_le_of_startsAt {chars : List Char} (starts : pattern.startsAt chars = true) :
    pattern.length ≤ chars.length := by
  induction pattern generalizing chars with
  | nil => exact Nat.zero_le _
  | cons accepts pattern inductionHypothesis =>
    cases chars with
    | nil => simp [startsAt] at starts
    | cons c rest =>
      rw [startsAt, Bool.and_eq_true] at starts
      exact Nat.succ_le_succ (inductionHypothesis starts.2)

/-- Every class of a pattern accepts a character of a match. -/
theorem exists_accepted_of_startsAt {chars : List Char} (starts : pattern.startsAt chars = true)
    {accepts : CharClass} (member : accepts ∈ pattern) : ∃ c ∈ chars, accepts c = true := by
  induction pattern generalizing chars with
  | nil => simp at member
  | cons first pattern inductionHypothesis =>
    cases chars with
    | nil => simp [startsAt] at starts
    | cons c rest =>
      rw [startsAt, Bool.and_eq_true] at starts
      rcases List.mem_cons.mp member with rfl | later
      · exact ⟨c, List.mem_cons_self, starts.1⟩
      · obtain ⟨other, inside, accepted⟩ := inductionHypothesis starts.2 later
        exact ⟨other, List.mem_cons_of_mem _ inside, accepted⟩

/-- No match goes beyond an inert character. -/
theorem startsAt_append_inert {c : Char} (inert : pattern.Inert c) (before after : List Char) :
    pattern.startsAt (before ++ c :: after) = pattern.startsAt before := by
  induction pattern generalizing before with
  | nil => cases before <;> rfl
  | cons accepts pattern inductionHypothesis =>
    obtain ⟨refuses, inertRest⟩ := List.forall_mem_cons.mp inert
    cases before with
    | nil => simp [startsAt, refuses]
    | cons other before =>
      rw [List.cons_append, startsAt, startsAt, inductionHypothesis inertRest]

/-- No match begins with a character that the first class refuses. -/
theorem startsAt_eq_false_of_head {c : Char}
    (refuses : ∀ accepts ∈ pattern.head?, accepts c = false) (nonempty : pattern ≠ [])
    (rest : List Char) : pattern.startsAt (c :: rest) = false := by
  cases pattern with
  | nil => exact absurd rfl nonempty
  | cons accepts pattern => simp [startsAt, refuses accepts rfl]

/-! ## Replacing -/

@[simp] theorem replace_nil : pattern.replace mark [] = [] := by
  rw [replace, replaceAfter]

/-- A character where no match begins stays. -/
theorem replace_cons_of_not_startsAt {c : Char} {rest : List Char}
    (starts : pattern.startsAt (c :: rest) = false) :
    pattern.replace mark (c :: rest) = c :: pattern.replace mark rest := by
  rw [replace, replaceAfter, starts]
  rfl

/-- Matches on the two sides of an inert character are replaced independently, also while the rest
of a match is passed over. -/
theorem replaceAfter_append_inert (nonempty : pattern ≠ []) {c : Char} (inert : pattern.Inert c)
    (skipped : Nat) (before after : List Char) (enough : skipped ≤ before.length) :
    pattern.replaceAfter mark skipped (before ++ c :: after) =
      pattern.replaceAfter mark skipped before ++ c :: pattern.replace mark after := by
  induction before generalizing skipped with
  | nil =>
    obtain rfl : skipped = 0 := Nat.le_zero.mp enough
    have starts : pattern.startsAt (c :: after) = false :=
      startsAt_eq_false_of_head (fun accepts first => inert accepts (List.mem_of_head? first))
        nonempty after
    exact replace_cons_of_not_startsAt starts
  | cons other before inductionHypothesis =>
    cases skipped with
    | succ skipped =>
      rw [List.cons_append, replaceAfter, replaceAfter]
      exact inductionHypothesis skipped (Nat.le_of_succ_le_succ enough)
    | zero =>
      have same := startsAt_append_inert inert (other :: before) after
      rw [List.cons_append] at same ⊢
      rw [replaceAfter, replaceAfter, same]
      split
      · rename_i starts
        have length := length_le_of_startsAt starts
        rw [List.length_cons] at length
        rw [inductionHypothesis _ (by omega), List.append_assoc]
      · rw [inductionHypothesis 0 (Nat.zero_le _), List.cons_append]

/-- Matches on the two sides of an inert character are replaced independently. -/
theorem replace_append_inert (mark : List Char) (nonempty : pattern ≠ []) {c : Char}
    (inert : pattern.Inert c) (before after : List Char) :
    pattern.replace mark (before ++ c :: after) =
      pattern.replace mark before ++ c :: pattern.replace mark after :=
  replaceAfter_append_inert nonempty inert 0 before after (Nat.zero_le _)

/-- Replacing leaves a text alone in which nothing matches. -/
theorem replace_of_not_occursIn {chars : List Char} (absent : pattern.occursIn chars = false) :
    pattern.replace mark chars = chars := by
  induction chars with
  | nil => exact replace_nil
  | cons c rest inductionHypothesis =>
    rw [occursIn, Bool.or_eq_false_iff] at absent
    rw [replace_cons_of_not_startsAt absent.1, inductionHypothesis absent.2]

/-- Replacing leaves a text alone exactly when nothing in it matches, if the mark begins with a
character that begins no match. -/
theorem replace_eq_self_iff (nonempty : pattern ≠ []) {first : Char} {others : List Char}
    (refuses : ∀ accepts ∈ pattern.head?, accepts first = false) (chars : List Char) :
    pattern.replace (first :: others) chars = chars ↔ pattern.occursIn chars = false := by
  refine ⟨fun same => ?_, replace_of_not_occursIn⟩
  induction chars with
  | nil => simpa [occursIn] using nonempty
  | cons c rest inductionHypothesis =>
    rw [occursIn, Bool.or_eq_false_iff]
    by_cases starts : pattern.startsAt (c :: rest) = true
    · rw [replace, replaceAfter, if_pos starts, List.cons_append] at same
      obtain ⟨rfl, _⟩ := List.cons_eq_cons.mp same
      exact absurd starts (by simp [startsAt_eq_false_of_head refuses nonempty rest])
    · have notHere : pattern.startsAt (c :: rest) = false := by simpa using starts
      rw [replace_cons_of_not_startsAt notHere, List.cons_eq_cons] at same
      exact ⟨notHere, inductionHypothesis same.2⟩

/-- Nothing matches where a class accepts no character. -/
theorem not_occursIn_of_refused {accepts : CharClass} (member : accepts ∈ pattern)
    {chars : List Char} (refuses : ∀ c ∈ chars, accepts c = false) :
    pattern.occursIn chars = false := by
  induction chars with
  | nil => simpa [occursIn] using List.ne_nil_of_mem member
  | cons c rest inductionHypothesis =>
    rw [occursIn, Bool.or_eq_false_iff]
    refine ⟨?_, inductionHypothesis (List.forall_mem_cons.mp refuses).2⟩
    rw [Bool.eq_false_iff]
    intro starts
    obtain ⟨other, inside, accepted⟩ := exists_accepted_of_startsAt starts member
    exact absurd accepted (by simp [refuses other inside])

/-- After replacing there are the characters from before and those of the mark. -/
theorem mem_of_mem_replace {chars : List Char} {c : Char}
    (present : c ∈ pattern.replace mark chars) : c ∈ chars ∨ c ∈ mark := by
  suffices general : ∀ skipped, c ∈ pattern.replaceAfter mark skipped chars → c ∈ chars ∨ c ∈ mark
    from general 0 present
  clear present
  induction chars with
  | nil => intro skipped found; simp [replaceAfter] at found
  | cons other rest inductionHypothesis =>
    intro skipped found
    cases skipped with
    | succ skipped =>
      rw [replaceAfter] at found
      exact (inductionHypothesis skipped found).imp_left (List.mem_cons_of_mem _)
    | zero =>
      rw [replaceAfter] at found
      split at found
      · rcases List.mem_append.mp found with marked | later
        · exact .inr marked
        · exact (inductionHypothesis _ later).imp_left (List.mem_cons_of_mem _)
      · rcases List.mem_cons.mp found with rfl | later
        · exact .inl List.mem_cons_self
        · exact (inductionHypothesis 0 later).imp_left (List.mem_cons_of_mem _)

/-! ## What is left after replacing -/

/-- What a match begins with, the match goes on with anything after it. -/
theorem startsAt_append {chars : List Char} (starts : pattern.startsAt chars = true)
    (after : List Char) : pattern.startsAt (chars ++ after) = true := by
  induction pattern generalizing chars with
  | nil => rfl
  | cons accepts pattern inductionHypothesis =>
    cases chars with
    | nil => simp [startsAt] at starts
    | cons c rest =>
      rw [startsAt, Bool.and_eq_true] at starts
      rw [List.cons_append, startsAt, Bool.and_eq_true]
      exact ⟨starts.1, inductionHypothesis starts.2⟩

/-- An inert character before a text is in no match of it. -/
theorem occursIn_cons_inert (nonempty : pattern ≠ []) {c : Char} (inert : pattern.Inert c)
    (rest : List Char) : pattern.occursIn (c :: rest) = pattern.occursIn rest := by
  have starts : pattern.startsAt (c :: rest) = false :=
    startsAt_eq_false_of_head (fun accepts first => inert accepts (List.mem_of_head? first))
      nonempty rest
  rw [occursIn, starts, Bool.false_or]

section

variable {other : Pattern} {first : Char} {others : List Char}

/-- Replacing with a mark that is in no match brings in no match, not even one that begins before
the text. -/
theorem startsAt_of_startsAt_replace (inert : other.Inert first) (before chars : List Char)
    (starts : other.startsAt (before ++ pattern.replace (first :: others) chars) = true) :
    other.startsAt (before ++ chars) = true := by
  induction chars generalizing before with
  | nil => rwa [replace_nil] at starts
  | cons c rest inductionHypothesis =>
    by_cases here : pattern.startsAt (c :: rest) = true
    · rw [replace, replaceAfter, if_pos here, List.cons_append,
        startsAt_append_inert inert] at starts
      exact startsAt_append starts _
    · rw [replace_cons_of_not_startsAt (Bool.eq_false_iff.mpr here), ← List.singleton_append,
        ← List.append_assoc] at starts
      simpa using inductionHypothesis (before ++ [c]) starts

/-- After the matches of a pattern have been replaced, nothing matches another one that matches
nowhere else. -/
theorem not_occursIn_replace_of_covered (nonempty : other ≠ [])
    (inert : ∀ c ∈ first :: others, other.Inert c) {chars : List Char}
    (covered : ∀ rest, rest <:+ chars → other.startsAt rest = true →
      pattern.startsAt rest = true) :
    other.occursIn (pattern.replace (first :: others) chars) = false := by
  have marked : ∀ (mark rest : List Char), (∀ c ∈ mark, other.Inert c) →
      other.occursIn (mark ++ rest) = other.occursIn rest := by
    intro mark rest each
    induction mark with
    | nil => rfl
    | cons c mark inductionHypothesis =>
      rw [List.forall_mem_cons] at each
      rw [List.cons_append, occursIn_cons_inert nonempty each.1, inductionHypothesis each.2]
  suffices general : ∀ skipped,
      other.occursIn (pattern.replaceAfter (first :: others) skipped chars) = false from general 0
  induction chars with
  | nil => intro skipped; simpa [replaceAfter, occursIn] using nonempty
  | cons c rest inductionHypothesis =>
    intro skipped
    have later := inductionHypothesis fun tail suffix =>
      covered tail (suffix.trans (List.suffix_cons c rest))
    cases skipped with
    | succ skipped => exact later skipped
    | zero =>
      rw [replaceAfter]
      split
      · rw [marked _ _ inert]
        exact later _
      · rename_i notHere
        rw [occursIn, Bool.or_eq_false_iff]
        refine ⟨?_, later 0⟩
        rw [Bool.eq_false_iff]
        intro starts
        have before :=
          startsAt_of_startsAt_replace (List.forall_mem_cons.mp inert).1 [c] rest starts
        exact notHere (covered _ (List.suffix_refl _) before)

/-- Nothing matches a pattern after its matches have been replaced. -/
theorem not_occursIn_replace (nonempty : pattern ≠ [])
    (inert : ∀ c ∈ first :: others, pattern.Inert c) (chars : List Char) :
    pattern.occursIn (pattern.replace (first :: others) chars) = false :=
  not_occursIn_replace_of_covered nonempty inert fun _ _ starts => starts

/-- Where nothing matches, no match begins anywhere. -/
theorem not_startsAt_of_suffix (nonempty : other ≠ []) {chars rest : List Char}
    (absent : other.occursIn chars = false) (suffix : rest <:+ chars) :
    other.startsAt rest = false := by
  induction chars with
  | nil =>
    obtain rfl := List.suffix_nil.mp suffix
    cases other with
    | nil => exact absurd rfl nonempty
    | cons accepts other => rfl
  | cons c chars inductionHypothesis =>
    rw [occursIn, Bool.or_eq_false_iff] at absent
    rcases List.suffix_cons_iff.mp suffix with rfl | later
    · exact absent.1
    · exact inductionHypothesis absent.2 later

/-- Replacing brings in no match of another pattern. -/
theorem not_occursIn_replace_of_not_occursIn (nonempty : other ≠ [])
    (inert : ∀ c ∈ first :: others, other.Inert c) {chars : List Char}
    (absent : other.occursIn chars = false) :
    other.occursIn (pattern.replace (first :: others) chars) = false :=
  not_occursIn_replace_of_covered nonempty inert fun _ suffix starts => by
    rw [not_startsAt_of_suffix nonempty absent suffix] at starts
    exact absurd starts Bool.false_ne_true

end

/-- Replacing reaches a text after another one unchanged, or a match begins inside the other one. -/
theorem replace_append_eq_or (mark before after : List Char) :
    pattern.replace mark (before ++ after) = before ++ pattern.replace mark after ∨
      ∃ kept < before.length, ∃ rest,
        pattern.replace mark (before ++ after) = before.take kept ++ (mark ++ rest) := by
  induction before with
  | nil => exact .inl rfl
  | cons c before inductionHypothesis =>
    by_cases starts : pattern.startsAt (c :: (before ++ after)) = true
    · refine .inr ⟨0, by simp, pattern.replaceAfter mark (pattern.length - 1) (before ++ after), ?_⟩
      rw [List.cons_append, replace, replaceAfter, if_pos starts]
      rfl
    · rw [List.cons_append, replace_cons_of_not_startsAt (Bool.eq_false_iff.mpr starts)]
      rcases inductionHypothesis with same | ⟨kept, fewer, rest, begins⟩
      · exact .inl (by rw [same, List.cons_append])
      · exact .inr ⟨kept + 1, Nat.succ_lt_succ fewer, rest, by rw [begins]; rfl⟩

/-! ## Blocks between which matches are independent -/

/-- A block of characters that is in no match and keeps the matches on its two sides apart. -/
def Separates (pattern : Pattern) (mark block : List Char) : Prop :=
  ∀ before after, pattern.replace mark (before ++ block ++ after) =
    pattern.replace mark before ++ block ++ pattern.replace mark after

/-- A block between two inert characters separates, if nothing in it matches. -/
theorem separates_enclosed (mark : List Char) (nonempty : pattern ≠ []) {first last : Char}
    (inertFirst : pattern.Inert first) (inertLast : pattern.Inert last) (middle : List Char)
    (absent : pattern.occursIn middle = false) :
    pattern.Separates mark (first :: middle ++ [last]) := fun before after => by
  have left := replace_append_inert mark nonempty inertFirst before
    (middle ++ last :: after)
  have right := replace_append_inert mark nonempty inertLast middle after
  rw [replace_of_not_occursIn absent] at right
  rw [right] at left
  simpa using left

/-- Replacing commutes with spelling every character as a block of its own, if a character is
spelled as itself or is inert and spelled as a block that separates. -/
theorem replace_flatMap (nonempty : pattern ≠ []) {spelling : Char → List Char}
    {chars : List Char}
    (spelled : ∀ c ∈ chars, spelling c = [c] ∨
      pattern.Inert c ∧ pattern.Separates mark (spelling c))
    (marked : ∀ c ∈ mark, spelling c = [c]) :
    pattern.replace mark (chars.flatMap spelling) =
      (pattern.replace mark chars).flatMap spelling := by
  have unchanged : ∀ plain : List Char, (∀ c ∈ plain, spelling c = [c]) →
      (pattern.replace mark plain).flatMap spelling = pattern.replace mark plain := by
    intro plain same
    have each : ∀ c ∈ pattern.replace mark plain, spelling c = [c] := fun c present =>
      (mem_of_mem_replace present).elim (same c) (marked c)
    rw [List.flatMap_congr each, List.flatMap_singleton']
  -- The characters since the last separating block may belong to a match that goes on.
  suffices general : ∀ plain : List Char, (∀ c ∈ plain, spelling c = [c]) →
      pattern.replace mark (plain ++ chars.flatMap spelling) =
        (pattern.replace mark (plain ++ chars)).flatMap spelling from
    general [] (by simp)
  induction chars with
  | nil =>
    intro plain same
    simpa using (unchanged plain same).symm
  | cons c rest inductionHypothesis =>
    rw [List.forall_mem_cons] at spelled
    intro plain same
    rcases spelled.1 with itself | ⟨inert, separates⟩
    · have longer : ∀ other ∈ plain ++ [c], spelling other = [other] :=
        List.forall_mem_append.mpr ⟨same, List.forall_mem_singleton.mpr itself⟩
      simpa [itself] using inductionHypothesis spelled.2 (plain ++ [c]) longer
    · have later := inductionHypothesis spelled.2 [] (by simp)
      rw [List.nil_append, List.nil_append] at later
      rw [List.flatMap_cons, ← List.append_assoc, separates, later,
        replace_append_inert mark nonempty inert, List.flatMap_append, List.flatMap_cons,
        unchanged plain same, List.append_assoc]

end EventRelay.Masking.Pattern
