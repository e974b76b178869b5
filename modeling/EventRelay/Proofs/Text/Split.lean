import EventRelay.Text.Blank
import EventRelay.Text.Split
import Mathlib

/-!
# Cutting, joining and trimming

Cutting at a separator and joining with it are the operations on lists of these names, so a piece
never holds the separator, and pieces that do not hold it come back when they are joined and cut
again. A trimmed text has no blank at either end, so trimming it once more changes nothing.
-/

namespace EventRelay.Text

/-! ## Pieces -/

/-- Cutting a list of characters is cutting a list. -/
theorem splitList_eq_splitOn (separator : Char) (chars : List Char) :
    splitList separator chars = chars.splitOn separator := by
  induction chars with
  | nil => rfl
  | cons c rest inductionHypothesis =>
    rw [splitList, List.splitOn_cons_eq_if_modifyHead, inductionHypothesis]
    by_cases same : c = separator
    · simp [same]
    · cases cut : rest.splitOn separator with
      | nil => exact absurd cut (List.splitOn_ne_nil separator rest)
      | cons piece others => simp [same]

/-- Joining lists of characters is joining lists. -/
theorem joinList_eq_intercalate (separator : Char) (pieces : List (List Char)) :
    joinList separator pieces = [separator].intercalate pieces := by
  fun_induction joinList separator pieces with
  | case1 => rfl
  | case2 piece => rw [List.intercalate_singleton]
  | case3 piece others several inductionHypothesis =>
    rw [List.intercalate_cons_of_ne_nil several, inductionHypothesis, List.append_assoc]
    rfl

/-- No piece holds the separator. -/
theorem not_mem_of_mem_splitList {separator : Char} {chars piece : List Char}
    (cut : piece ∈ splitList separator chars) : separator ∉ piece := by
  induction chars generalizing piece with
  | nil =>
    rw [List.mem_singleton.mp cut]
    exact List.not_mem_nil
  | cons c rest inductionHypothesis =>
    rw [splitList] at cut
    split at cut
    · rcases List.mem_cons.mp cut with rfl | later
      · exact List.not_mem_nil
      · exact inductionHypothesis later
    · rename_i other
      cases pieces : splitList separator rest with
      | nil => exact absurd pieces (splitList_ne_nil separator rest)
      | cons first others =>
        rw [pieces] at cut
        rw [pieces] at inductionHypothesis
        rcases List.mem_cons.mp cut with rfl | later
        · rw [List.mem_cons, not_or]
          exact ⟨fun same => other same.symm, inductionHypothesis List.mem_cons_self⟩
        · exact inductionHypothesis (List.mem_cons_of_mem _ later)

/-- No piece of a text holds the separator. -/
theorem not_mem_of_mem_split {separator : Char} {text piece : String}
    (cut : piece ∈ split separator text) : separator ∉ piece.toList := by
  obtain ⟨chars, inside, rfl⟩ := List.mem_map.mp cut
  rw [String.toList_ofList]
  exact not_mem_of_mem_splitList inside

/-- Cutting at a separator in the middle cuts what is before it and what is after it. -/
theorem splitList_append (separator : Char) (before after : List Char) :
    splitList separator (before ++ separator :: after) =
      splitList separator before ++ splitList separator after := by
  simp only [splitList_eq_splitOn]
  exact List.splitOnP_append_cons before after (beq_self_eq_true separator)

/-- What does not hold the separator stays in one piece. -/
theorem splitList_of_not_mem {separator : Char} {chars : List Char} (clean : separator ∉ chars) :
    splitList separator chars = [chars] := by
  rw [splitList_eq_splitOn, List.splitOn_eq_singleton clean]

/-- Pieces that do not hold the separator come back when they are joined and cut. -/
theorem split_join {separator : Char} {pieces : List String}
    (clean : ∀ piece ∈ pieces, separator ∉ piece.toList) (several : pieces ≠ []) :
    split separator (join separator pieces) = pieces := by
  have back : (pieces.map String.toList).map String.ofList = pieces := by
    simp [List.map_map, Function.comp_def]
  rw [split, join, String.toList_ofList, splitList_eq_splitOn, joinList_eq_intercalate,
    List.splitOn_intercalate separator _ (by simpa using several), back]
  simpa using clean

/-! ## Trimming -/

/-- Trimming is dropping from the front and from the back. -/
theorem trimList_eq_rdropWhile (drops : Char → Bool) (chars : List Char) :
    trimList drops chars = (chars.dropWhile drops).rdropWhile drops :=
  rfl

/-- Trimming takes characters of the class from both ends until neither end is in the class. -/
theorem exists_trimmed (drops : Char → Bool) (chars : List Char) :
    ∃ front back, chars = front ++ trimList drops chars ++ back ∧
      (∀ c ∈ front, drops c = true) ∧ (∀ c ∈ back, drops c = true) ∧
      (∀ c ∈ (trimList drops chars).head?, drops c = false) ∧
      ∀ c ∈ (trimList drops chars).getLast?, drops c = false := by
  refine ⟨chars.takeWhile drops, (chars.dropWhile drops).rtakeWhile drops, ?_, ?_, ?_, ?_, ?_⟩
  · rw [trimList_eq_rdropWhile, List.append_assoc, List.rdropWhile_append_rtakeWhile,
      List.takeWhile_append_dropWhile]
  · exact fun c inside => List.mem_takeWhile_imp inside
  · exact fun c inside => List.mem_rtakeWhile_imp inside
  · intro c first
    have start : trimList drops chars <+: chars.dropWhile drops := List.rdropWhile_prefix drops _
    obtain ⟨rest, cut⟩ := start
    have head : (chars.dropWhile drops).head? = some c := by
      rw [← cut, List.head?_append_of_ne_nil]
      · exact first
      · exact List.ne_nil_of_mem (List.mem_of_head? first)
    have refused := List.head?_dropWhile_not drops chars
    rwa [head] at refused
  · intro c last
    obtain ⟨some, rfl⟩ := List.mem_getLast?_eq_getLast last
    exact Bool.eq_false_of_not_eq_true (List.rdropWhile_last_not drops _ some)

/-- A trimmed list is not trimmed any further. -/
theorem trimList_trimList (drops : Char → Bool) (chars : List Char) :
    trimList drops (trimList drops chars) = trimList drops chars := by
  rw [trimList_eq_rdropWhile drops (trimList drops chars)]
  have front : (trimList drops chars).dropWhile drops = trimList drops chars := by
    refine List.dropWhile_eq_self_iff.mpr fun long => ?_
    have start : (trimList drops chars) <+: chars.dropWhile drops := List.rdropWhile_prefix drops _
    have longer := long.trans_le start.length_le
    rw [start.getElem long]
    exact List.dropWhile_get_zero_not drops chars longer
  rw [front, trimList_eq_rdropWhile, List.rdropWhile_idempotent]

/-- A trimmed text is not trimmed any further. -/
theorem trim_trim (text : String) : trim (trim text) = trim text := by
  simp only [trim, trimBy, String.toList_ofList, trimList_trimList]

/-- A text is blank when all of its characters are. -/
theorem isBlankText_iff {text : String} :
    isBlankText text = true ↔ ∀ c ∈ text.toList, isBlank c = true := by
  rw [isBlankText, String.isEmpty_iff, ← String.toList_eq_nil_iff, trim, trimBy,
    String.toList_ofList]
  constructor
  · intro nothing
    obtain ⟨front, back, cut, frontBlank, backBlank, -⟩ := exists_trimmed isBlank text.toList
    rw [nothing, List.append_nil] at cut
    rw [cut, List.forall_mem_append]
    exact ⟨frontBlank, backBlank⟩
  · intro blank
    rw [trimList_eq_rdropWhile, List.dropWhile_eq_nil_iff.mpr blank, List.rdropWhile_nil]

/-- What is trimmed away leaves no characters that were not there. -/
theorem mem_of_mem_trim {c : Char} {text : String} (inside : c ∈ (trim text).toList) :
    c ∈ text.toList := by
  rw [trim, trimBy, String.toList_ofList, trimList_eq_rdropWhile] at inside
  exact (List.dropWhile_sublist isBlank).mem ((List.rdropWhile_prefix isBlank _).mem inside)

end EventRelay.Text
