import EventRelay.Decimal.Binary64
import Mathlib

/-!
# Rounding keeps the order

A quotient is rounded at the scale at which it has 53 bits. The scale grows with the quotient, and
what is rounded at one scale lies below what is rounded at the next, so of two quotients the smaller
one is never rounded to the larger size. Products therefore stay finite below a product that does.
-/

namespace EventRelay.Decimal.Size

/-! ## One scale -/

/-- Rounding a quotient to a whole number gives one of its two neighbours. -/
theorem div_le_roundedQuotient (num den : Nat) :
    num / den ≤ roundedQuotient num den ∧ roundedQuotient num den ≤ num / den + 1 := by
  unfold roundedQuotient
  dsimp only
  split
  · omega
  · split
    · omega
    · have half := Nat.mod_lt (num / den) (by decide : 0 < 2)
      omega

/-- Of two quotients the smaller one has the smaller whole part. -/
theorem div_le_div_of_mul_le {num den otherNum otherDen : Nat} (positive : 0 < den)
    (otherPositive : 0 < otherDen) (below : num * otherDen ≤ otherNum * den) :
    num / den ≤ otherNum / otherDen := by
  refine (Nat.le_div_iff_mul_le otherPositive).mpr (Nat.le_of_mul_le_mul_right ?_ positive)
  calc num / den * otherDen * den = num / den * den * otherDen := Nat.mul_right_comm ..
    _ ≤ num * otherDen := Nat.mul_le_mul_right _ (Nat.div_mul_le_self num den)
    _ ≤ otherNum * den := below

/-- Rounding to a whole number keeps the order of quotients. -/
theorem roundedQuotient_mono {num den otherNum otherDen : Nat} (positive : 0 < den)
    (otherPositive : 0 < otherDen) (below : num * otherDen ≤ otherNum * den) :
    roundedQuotient num den ≤ roundedQuotient otherNum otherDen := by
  have parts := div_le_div_of_mul_le positive otherPositive below
  rcases Nat.lt_or_eq_of_le parts with less | same
  · have upper := (div_le_roundedQuotient num den).2
    have lower := (div_le_roundedQuotient otherNum otherDen).1
    omega
  · -- The whole parts are equal, so the remainders decide.
    have remainders : num % den * otherDen ≤ otherNum % otherDen * den := by
      have whole := Nat.div_add_mod num den
      have otherWhole := Nat.div_add_mod otherNum otherDen
      rw [← whole, ← otherWhole, same] at below
      have spread : (den * (otherNum / otherDen) + num % den) * otherDen =
          den * otherDen * (otherNum / otherDen) + num % den * otherDen := by ring
      have otherSpread : (otherDen * (otherNum / otherDen) + otherNum % otherDen) * den =
          den * otherDen * (otherNum / otherDen) + otherNum % otherDen * den := by ring
      omega
    have above : den < 2 * (num % den) → otherDen < 2 * (otherNum % otherDen) := by
      intro more
      nlinarith
    have notBelow : den ≤ 2 * (num % den) → otherDen ≤ 2 * (otherNum % otherDen) := by
      intro more
      nlinarith
    unfold roundedQuotient
    dsimp only
    rw [same]
    have half := Nat.mod_lt (otherNum / otherDen) (by decide : 0 < 2)
    split_ifs <;> omega

/-! ## All scales -/

theorem denominator_pos : 0 < denominator := by
  unfold denominator
  generalize 1074 = bits
  exact Nat.two_pow_pos bits

/-- At its scale a quotient has at most 53 bits. -/
theorem lt_scaleOf {num den : Nat} (positive : 0 < den) :
    num * denominator < 2 ^ (scaleOf num den + 53) * den := by
  have numBelow : num < 2 ^ (num.log2 + 1) := Nat.lt_log2_self
  have denAbove : 2 ^ den.log2 ≤ den := Nat.log2_self_le (Nat.ne_of_gt positive)
  unfold scaleOf denominator
  generalize 1074 = bits
  dsimp only
  split
  · obtain ⟨guess, guessDef⟩ : ∃ guess, guess = num.log2 + bits - den.log2 - 53 := ⟨_, rfl⟩
    rw [← guessDef]
    calc num * 2 ^ bits < 2 ^ (num.log2 + 1) * 2 ^ bits :=
          Nat.mul_lt_mul_of_pos_right numBelow (Nat.two_pow_pos bits)
      _ = 2 ^ (num.log2 + 1 + bits) := (Nat.pow_add ..).symm
      _ ≤ 2 ^ (guess + 1 + 53 + den.log2) := Nat.pow_le_pow_right (by decide) (by omega)
      _ = 2 ^ (guess + 1 + 53) * 2 ^ den.log2 := Nat.pow_add ..
      _ ≤ 2 ^ (guess + 1 + 53) * den := Nat.mul_le_mul_left _ denAbove
  · rename_i fits
    exact Nat.lt_of_not_le fits

/-- Beyond the least scale a quotient has all of the 53 bits. -/
theorem scaleOf_le {num den : Nat} (nonzero : num ≠ 0) (positive : 0 < scaleOf num den) :
    2 ^ (scaleOf num den + 52) * den ≤ num * denominator := by
  have numAbove : 2 ^ num.log2 ≤ num := Nat.log2_self_le nonzero
  have denBelow : den < 2 ^ (den.log2 + 1) := Nat.lt_log2_self
  revert positive
  unfold scaleOf denominator
  generalize 1074 = bits
  dsimp only
  split
  · rename_i reached
    exact fun _ => reached
  · intro positive
    obtain ⟨guess, guessDef⟩ : ∃ guess, guess = num.log2 + bits - den.log2 - 53 := ⟨_, rfl⟩
    rw [← guessDef] at positive ⊢
    calc 2 ^ (guess + 52) * den ≤ 2 ^ (guess + 52) * 2 ^ (den.log2 + 1) :=
          Nat.mul_le_mul_left _ denBelow.le
      _ = 2 ^ (guess + 52 + (den.log2 + 1)) := (Nat.pow_add ..).symm
      _ = 2 ^ (num.log2 + bits) := by congr 1; omega
      _ = 2 ^ num.log2 * 2 ^ bits := Nat.pow_add ..
      _ ≤ num * 2 ^ bits := Nat.mul_le_mul_right _ numAbove

/-- The place that rounding a quotient leads to, be it finite or not. -/
def roundedPlace (num den : Nat) : Nat :=
  let scale := if num = 0 then 0 else scaleOf num den
  scale * sizesPerScale + roundedQuotient (num * denominator) (den * Nat.pow 2 scale)

theorem nearest?_eq_dite (num den : Nat) :
    nearest? num den =
      if finite : roundedPlace num den < sizeCount then some ⟨roundedPlace num den, finite⟩
      else none :=
  rfl

/-- What is rounded at a scale lies in the two steps from that scale on, and beyond the least scale
in the second one. -/
theorem roundedQuotient_bounds {num den : Nat} (nonzero : num ≠ 0) (positive : 0 < den) :
    roundedQuotient (num * denominator) (den * Nat.pow 2 (scaleOf num den)) ≤
        2 * sizesPerScale ∧
      (0 < scaleOf num den → sizesPerScale ≤
        roundedQuotient (num * denominator) (den * Nat.pow 2 (scaleOf num den))) := by
  have bounds := div_le_roundedQuotient (num * denominator) (den * Nat.pow 2 (scaleOf num den))
  have unit : 0 < den * Nat.pow 2 (scaleOf num den) := Nat.mul_pos positive (Nat.two_pow_pos _)
  constructor
  · refine bounds.2.trans (Nat.succ_le_of_lt ((Nat.div_lt_iff_lt_mul unit).mpr ?_))
    calc num * denominator < 2 ^ (scaleOf num den + 53) * den := lt_scaleOf positive
      _ = 2 * sizesPerScale * (den * Nat.pow 2 (scaleOf num den)) := by
        rw [Nat.pow_add, show 2 * sizesPerScale = 2 ^ 53 from by decide]
        change _ = 2 ^ 53 * (den * 2 ^ scaleOf num den)
        ring
  · intro scaled
    refine le_trans ((Nat.le_div_iff_mul_le unit).mpr ?_) bounds.1
    calc sizesPerScale * (den * Nat.pow 2 (scaleOf num den))
        = 2 ^ (scaleOf num den + 52) * den := by
          rw [Nat.pow_add, show sizesPerScale = 2 ^ 52 from by decide]
          change 2 ^ 52 * (den * 2 ^ scaleOf num den) = _
          ring
      _ ≤ num * denominator := scaleOf_le nonzero scaled

/-- Rounding keeps the order of quotients. -/
theorem roundedPlace_mono {num den otherNum otherDen : Nat} (positive : 0 < den)
    (otherPositive : 0 < otherDen) (below : num * otherDen ≤ otherNum * den) :
    roundedPlace num den ≤ roundedPlace otherNum otherDen := by
  by_cases zero : num = 0
  · have nothing : roundedPlace num den = 0 := by simp [zero, roundedPlace, roundedQuotient]
    rw [nothing]
    exact Nat.zero_le _
  have otherNonzero : otherNum ≠ 0 := by
    rintro rfl
    have product : 0 < num * otherDen := Nat.mul_pos (Nat.pos_of_ne_zero zero) otherPositive
    omega
  have bounds := roundedQuotient_bounds zero positive
  have otherBounds := roundedQuotient_bounds otherNonzero otherPositive
  -- A quotient with all 53 bits at its scale is not below one that fits a smaller scale.
  have scales : scaleOf num den ≤ scaleOf otherNum otherDen := by
    by_contra larger
    have full := scaleOf_le zero (by omega : 0 < scaleOf num den)
    have fits := @lt_scaleOf otherNum otherDen otherPositive
    have grows : 2 ^ (scaleOf otherNum otherDen + 53) ≤ 2 ^ (scaleOf num den + 52) :=
      Nat.pow_le_pow_right (by decide) (by omega)
    have product : num * denominator * otherDen < num * denominator * otherDen := calc
      num * denominator * otherDen = num * otherDen * denominator := Nat.mul_right_comm ..
      _ ≤ otherNum * den * denominator := Nat.mul_le_mul_right _ below
      _ = otherNum * denominator * den := Nat.mul_right_comm ..
      _ < 2 ^ (scaleOf otherNum otherDen + 53) * otherDen * den :=
        Nat.mul_lt_mul_of_pos_right fits positive
      _ ≤ 2 ^ (scaleOf num den + 52) * otherDen * den :=
        Nat.mul_le_mul_right _ (Nat.mul_le_mul_right _ grows)
      _ = 2 ^ (scaleOf num den + 52) * den * otherDen := Nat.mul_right_comm ..
      _ ≤ num * denominator * otherDen := Nat.mul_le_mul_right _ full
    exact lt_irrefl _ product
  simp only [roundedPlace, zero, otherNonzero, if_false]
  rcases Nat.lt_or_eq_of_le scales with less | same
  · have second := otherBounds.2 (by omega)
    have first := bounds.1
    have steps : scaleOf num den * sizesPerScale + sizesPerScale ≤
        scaleOf otherNum otherDen * sizesPerScale := by
      rw [← Nat.succ_mul]
      exact Nat.mul_le_mul_right _ less
    omega
  · rw [same]
    refine Nat.add_le_add_left (roundedQuotient_mono (Nat.mul_pos positive (Nat.two_pow_pos _))
      (Nat.mul_pos otherPositive (Nat.two_pow_pos _)) ?_) _
    calc num * denominator * (otherDen * Nat.pow 2 (scaleOf otherNum otherDen))
        = num * otherDen * (denominator * Nat.pow 2 (scaleOf otherNum otherDen)) := by ring
      _ ≤ otherNum * den * (denominator * Nat.pow 2 (scaleOf otherNum otherDen)) :=
        Nat.mul_le_mul_right _ below
      _ = otherNum * denominator * (den * Nat.pow 2 (scaleOf otherNum otherDen)) := by ring

/-- A quotient below one that is rounded to a size is rounded to one as well, and not to a later
one. -/
theorem exists_nearest? {num den otherNum otherDen : Nat} (positive : 0 < den)
    (otherPositive : 0 < otherDen) (below : num * otherDen ≤ otherNum * den) {other : Size}
    (rounded : nearest? otherNum otherDen = some other) :
    ∃ size, nearest? num den = some size ∧ size.place ≤ other.place := by
  have places := roundedPlace_mono positive otherPositive below
  rw [nearest?_eq_dite] at rounded ⊢
  split at rounded
  · rename_i finite
    obtain rfl := Option.some.inj rounded
    exact ⟨_, dif_pos (lt_of_le_of_lt places finite), places⟩
  · simp at rounded

/-! ## Whole numbers and products -/

/-- Later sizes are larger numbers. -/
theorem numerator_mono {size other : Size} (before : size.place ≤ other.place) :
    size.numerator ≤ other.numerator := by
  obtain ⟨place, _⟩ := size
  obtain ⟨otherPlace, _⟩ := other
  have positive : 0 < sizesPerScale := by decide
  have rest := Nat.mod_lt place positive
  have scales : place / sizesPerScale ≤ otherPlace / sizesPerScale := Nat.div_le_div_right before
  simp only [numerator, significand, scale] at before ⊢
  split_ifs with least otherLeast otherLeast
  · have lowest : place / sizesPerScale = 0 := Nat.div_eq_of_lt least
    have otherLowest : otherPlace / sizesPerScale = 0 := Nat.div_eq_of_lt otherLeast
    rw [lowest, otherLowest]
    exact Nat.mul_le_mul_right _ before
  · have lowest : place / sizesPerScale = 0 := Nat.div_eq_of_lt least
    rw [lowest]
    calc place * 2 ^ (0 - 1) = place := Nat.mul_one place
      _ ≤ sizesPerScale + otherPlace % sizesPerScale := by omega
      _ ≤ _ := Nat.le_mul_of_pos_right _ (Nat.two_pow_pos _)
  · omega
  · have above : 1 ≤ place / sizesPerScale :=
      (Nat.le_div_iff_mul_le positive).mpr (by omega)
    rcases Nat.lt_or_eq_of_le scales with less | same
    · calc (sizesPerScale + place % sizesPerScale) * 2 ^ (place / sizesPerScale - 1)
          ≤ sizesPerScale * 2 * 2 ^ (place / sizesPerScale - 1) :=
            Nat.mul_le_mul_right _ (by omega)
        _ = sizesPerScale * 2 ^ (place / sizesPerScale) := by
          rw [Nat.mul_assoc, ← Nat.pow_succ', Nat.succ_eq_add_one, Nat.sub_add_cancel above]
        _ ≤ sizesPerScale * 2 ^ (otherPlace / sizesPerScale - 1) :=
          Nat.mul_le_mul_left _ (Nat.pow_le_pow_right (by decide) (by omega))
        _ ≤ _ := Nat.mul_le_mul_right _ (Nat.le_add_right _ _)
    · have whole := Nat.div_add_mod place sizesPerScale
      have otherWhole := Nat.div_add_mod otherPlace sizesPerScale
      rw [same] at whole ⊢
      exact Nat.mul_le_mul_right _ (by omega)

/-- A whole number below one that is rounded to a size is rounded to one as well, and not to a later
one. -/
theorem exists_ofNat? {n other : Nat} (below : n ≤ other) {size : Size}
    (rounded : ofNat? other = some size) :
    ∃ smaller, ofNat? n = some smaller ∧ smaller.place ≤ size.place :=
  exists_nearest? (by decide) (by decide) (Nat.mul_le_mul_right 1 below) rounded

/-- A product is finite if it is finite with later sizes as its factors. -/
theorem exists_mul? {first second otherFirst otherSecond product : Size}
    (before : first.place ≤ otherFirst.place) (beforeSecond : second.place ≤ otherSecond.place)
    (finite : otherFirst.mul? otherSecond = some product) :
    ∃ smaller, first.mul? second = some smaller := by
  have unit : 0 < denominator * denominator := Nat.mul_pos denominator_pos denominator_pos
  have below := Nat.mul_le_mul (numerator_mono before) (numerator_mono beforeSecond)
  obtain ⟨smaller, rounded, _⟩ :=
    exists_nearest? unit unit (Nat.mul_le_mul_right _ below) finite
  exact ⟨smaller, rounded⟩

end EventRelay.Decimal.Size
