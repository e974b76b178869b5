import EventRelay.Proofs.Masking.Remains

/-!
# One pass of masking is enough

Nothing personal is left in a masked text: the mark is in no match, so neither pass brings in a
match of its own pattern or of the other one. Hence a masked text stays as it is when it is masked
again, and masking reports a change exactly where it makes one.
-/

namespace EventRelay.Masking

/-- Nothing personal is left in a masked text. -/
theorem not_holdsPersonal_maskText (text : String) : ¬ HoldsPersonal (maskText text) := by
  rw [← isPersonal_iff, toList_maskText, not_isPersonal_maskChars]
  exact Bool.false_ne_true

/-- A text without personal numbers is not reported as changed. -/
theorem maskText?_eq_none_iff (text : String) : maskText? text = none ↔ ¬ HoldsPersonal text := by
  rw [maskText?_eq_ite, ← isPersonal_iff]
  split
  · rename_i personal
    simp [personal]
  · rename_i plain
    exact iff_of_true rfl plain

/-- A text without personal numbers stays as it is. -/
theorem maskText_of_not_holdsPersonal {text : String} (plain : ¬ HoldsPersonal text) :
    maskText text = text := by
  rw [maskText, (maskText?_eq_none_iff text).mpr plain, Option.getD_none]

/-- A masked text is never the text itself. -/
theorem maskText_ne_of_holdsPersonal {text : String} (personal : HoldsPersonal text) :
    maskText text ≠ text := by
  intro same
  apply not_holdsPersonal_maskText text
  rw [same]
  exact personal

/-- Masking leaves no personal number in a text and leaves a masked text alone. It reports a change
exactly where there is a personal number, and then it has made one. -/
theorem maskText_complete (text : String) :
    ¬ HoldsPersonal (maskText text) ∧ maskText (maskText text) = maskText text ∧
      ((∃ masked, maskText? text = some masked) ↔ HoldsPersonal text) ∧
      ∀ masked, maskText? text = some masked → masked = maskText text ∧ masked ≠ text := by
  have nothingLeft := not_holdsPersonal_maskText text
  refine ⟨nothingLeft, maskText_of_not_holdsPersonal nothingLeft, ?_, ?_⟩
  · rw [← Option.isSome_iff_exists, Option.isSome_iff_ne_none, ne_eq, maskText?_eq_none_iff,
      not_not]
  · intro masked reported
    have personal : HoldsPersonal text := by
      by_contra plain
      rw [(maskText?_eq_none_iff text).mpr plain] at reported
      simp at reported
    obtain rfl : maskText text = masked := by rw [maskText, reported, Option.getD_some]
    exact ⟨rfl, maskText_ne_of_holdsPersonal personal⟩

/-- The first pass may cut through a telephone number; what is left of that is no number. -/
example : (maskChars? "212-345-67-8901-234-5678".toList).map String.ofList =
    some "212-###-234-5678" := by
  decide

end EventRelay.Masking
