import EventRelay.Decimal.Shortest
import EventRelay.Proofs.Decimal.Digits
import EventRelay.Proofs.Decimal.Rounding

/-!
# The shortest digits of a size

The digits are those of a multiple of a power of ten that rounds to the size. The power is at most
that of the first digit, so the multiple is not zero, and at most sixteen below it, so the multiple
has at most seventeen digits. Digits without the zeros at their end keep the value up to a power of
ten.
-/

namespace EventRelay.Decimal

namespace Shortest

/-- A power of ten is a quotient of two natural ones, of which one is one. -/
theorem zpow_eq_div (power : Int) :
    (10 : ℚ) ^ power = (10 ^ power.toNat : ℕ) / (10 ^ (-power).toNat : ℕ) := by
  obtain ⟨n, rfl | rfl⟩ := power.eq_nat_or_neg
  · simp
  · simp

/-- The leading power is that of the first digit which is not zero. -/
theorem leadingPower_bounds {num den : Nat} (positive : 0 < num) (divides : 0 < den) :
    (10 : ℚ) ^ leadingPower num den ≤ num / den ∧
      (num / den : ℚ) < 10 ^ (leadingPower num den + 1) := by
  have above : (0 : ℚ) < den := by exact_mod_cast divides
  unfold leadingPower
  split
  · rename_i whole
    have reached : 0 < num / den := Nat.div_pos whole divides
    have bounds := length_digits_bounds reached
    have filled : 1 ≤ (digits (num / den)).length :=
      List.length_pos_iff.mpr (digits_ne_nil _)
    rw [sub_add_cancel, le_div_iff₀ above, div_lt_iff₀ above, ← Nat.cast_one, ← Nat.cast_sub filled,
      zpow_natCast, zpow_natCast]
    constructor
    · exact_mod_cast (Nat.le_div_iff_mul_le divides).mp bounds.1
    · exact_mod_cast (Nat.div_lt_iff_lt_mul divides).mp bounds.2
  · rename_i fraction
    have reached : 0 < (den - 1) / num := Nat.div_pos (by omega) positive
    have bounds := length_digits_bounds reached
    obtain ⟨more, length⟩ : ∃ more, (digits ((den - 1) / num)).length = more + 1 :=
      ⟨_, (Nat.sub_add_cancel (List.length_pos_iff.mpr (digits_ne_nil _))).symm⟩
    rw [length, Nat.add_sub_cancel] at bounds
    have low := (Nat.le_div_iff_mul_le positive).mp bounds.1
    have high := (Nat.div_lt_iff_lt_mul positive).mp bounds.2
    have step : -((more + 1 : ℕ) : ℤ) + 1 = -(more : ℤ) := by push_cast; ring
    rw [length, step, zpow_neg, zpow_neg, zpow_natCast, zpow_natCast, le_div_iff₀ above,
      div_lt_iff₀ above, inv_mul_le_iff₀ (by positivity), lt_inv_mul_iff₀ (by positivity)]
    constructor
    · exact_mod_cast (show den ≤ 10 ^ (more + 1) * num by omega)
    · exact_mod_cast (show 10 ^ more * num < den by omega)

/-- What rounds to the size is not above the interval. -/
theorem le_high_of_holds {range : Interval} {point : Nat} (holds : range.holds point = true) :
    point ≤ range.high := by
  unfold Interval.holds at holds
  split at holds <;> simp only [Bool.and_eq_true, decide_eq_true_eq] at holds
  · exact holds.2
  · exact holds.2.le

/-- A multiple on the grid is one of the two neighbours of the centre, and it rounds to the size. -/
theorem onGrid?_eq_some {range : Interval} {power : Int} {multiple : Nat}
    (found : onGrid? range power = some multiple) :
    (multiple = (range.inUnits power).centre / (range.inUnits power).den ∨
      multiple = (range.inUnits power).centre / (range.inUnits power).den + 1) ∧
    (range.inUnits power).holds (multiple * (range.inUnits power).den) = true := by
  unfold onGrid? at found
  dsimp only at found
  generalize (range.inUnits power).centre / (range.inUnits power).den = below at found ⊢
  split at found
  · rename_i lower upper
    have even : below + below % 2 = below ∨ below + below % 2 = below + 1 := by omega
    split_ifs at found <;> obtain rfl := Option.some.inj found
    · exact ⟨.inl rfl, lower⟩
    · exact ⟨.inr rfl, upper⟩
    · refine ⟨even, ?_⟩
      rcases even with same | next
      · rwa [same]
      · rwa [next]
  · rename_i lower _
    obtain rfl := Option.some.inj found
    exact ⟨.inl rfl, lower⟩
  · rename_i _ upper
    obtain rfl := Option.some.inj found
    exact ⟨.inr rfl, upper⟩
  · simp at found

/-- On a grid at or below the leading power the multiple is positive, and it has at most one digit
for each further power. -/
theorem onGrid?_bounds {range : Interval} (centre : 0 < range.centre) (den : 0 < range.den)
    {further multiple : Nat}
    (found : onGrid? range (leadingPower range.centre range.den - further) = some multiple) :
    0 < multiple ∧ multiple ≤ 10 ^ (further + 1) := by
  obtain ⟨lead, leadDef⟩ : ∃ lead, lead = leadingPower range.centre range.den := ⟨_, rfl⟩
  have bounds := leadingPower_bounds centre den
  rw [← leadDef] at bounds found
  obtain ⟨neighbour, -⟩ := onGrid?_eq_some found
  obtain ⟨up, upDef⟩ : ∃ up, up = 10 ^ (-(lead - further)).toNat := ⟨_, rfl⟩
  obtain ⟨down, downDef⟩ : ∃ down, down = 10 ^ (lead - further).toNat := ⟨_, rfl⟩
  have quotient : (range.inUnits (lead - further)).centre /
      (range.inUnits (lead - further)).den = range.centre * up / (range.den * down) := by
    rw [upDef, downDef]
    rfl
  have unit : 0 < range.den * down := Nat.mul_pos den (downDef ▸ Nat.pow_pos (by decide))
  -- Over the grid's unit the centre lies between one and the next power of ten.
  have scaled : ((range.centre : ℚ) / range.den) =
      10 ^ (lead - further) * ((range.centre * up : ℕ) / (range.den * down : ℕ)) := by
    have upPositive : (up : ℚ) ≠ 0 := by rw [upDef]; positivity
    have downPositive : (down : ℚ) ≠ 0 := by rw [downDef]; positivity
    rw [zpow_eq_div, ← upDef, ← downDef]
    push_cast
    field_simp
  have split : ∀ more : ℤ,
      (10 : ℚ) ^ (lead + more) = 10 ^ (lead - further) * 10 ^ (further + more) :=
    fun more => by rw [← zpow_add₀ (by norm_num)]; congr 1; ring
  have positive : (0 : ℚ) < 10 ^ (lead - further) := by positivity
  have unitPositive : (0 : ℚ) < (range.den * down : ℕ) := by exact_mod_cast unit
  have low : 10 ^ further * (range.den * down) ≤ range.centre * up := by
    have lower := bounds.1
    rw [← add_zero lead, split 0, scaled, mul_le_mul_iff_right₀ positive, add_zero, zpow_natCast,
      le_div_iff₀ unitPositive] at lower
    exact_mod_cast lower
  have high : range.centre * up < 10 ^ (further + 1) * (range.den * down) := by
    have upper := bounds.2
    rw [split 1, scaled, mul_lt_mul_iff_right₀ positive, ← Nat.cast_one, ← Nat.cast_add,
      zpow_natCast, div_lt_iff₀ unitPositive] at upper
    exact_mod_cast upper
  have least : 10 ^ further ≤ range.centre * up / (range.den * down) :=
    (Nat.le_div_iff_mul_le unit).mpr low
  have most : range.centre * up / (range.den * down) < 10 ^ (further + 1) :=
    (Nat.div_lt_iff_lt_mul unit).mpr high
  have one : 1 ≤ 10 ^ further := Nat.one_le_pow _ _ (by decide)
  rw [quotient] at neighbour
  omega

/-- Digits are those without the zeros at their end, and zeros. -/
theorem withoutTrailingZeros_append (ds : List Digit) :
    ∃ zeros, ds = withoutTrailingZeros ds ++ List.replicate zeros Digit.zero := by
  unfold withoutTrailingZeros
  obtain ⟨zeros, taken⟩ : ∃ zeros, ds.reverse.takeWhile (· == Digit.zero) =
      List.replicate zeros Digit.zero :=
    ⟨_, List.eq_replicate_of_mem fun digit member => by
      simpa using List.mem_takeWhile_imp member⟩
  refine ⟨zeros, ?_⟩
  have parts := List.takeWhile_append_dropWhile (p := (· == Digit.zero)) (l := ds.reverse)
  rw [taken] at parts
  have reversed := congrArg List.reverse parts
  rw [List.reverse_append, List.reverse_reverse, List.reverse_replicate] at reversed
  exact reversed.symm

/-- The digits of a positive number without the zeros at their end begin as they did before, and
the zeros make up for the rest of the value. -/
theorem withoutTrailingZeros_digits {n : Nat} (positive : 0 < n) :
    ∃ zeros, value (withoutTrailingZeros (digits n)) * 10 ^ zeros = n ∧
      (digits n).length = (withoutTrailingZeros (digits n)).length + zeros ∧
      ∃ first rest, withoutTrailingZeros (digits n) = first :: rest ∧ first ≠ Digit.zero := by
  obtain ⟨zeros, parts⟩ := withoutTrailingZeros_append (digits n)
  obtain ⟨first, rest, spelled, significant⟩ := digits_of_pos n positive
  generalize withoutTrailingZeros (digits n) = kept at parts ⊢
  refine ⟨zeros, ?_, ?_, ?_⟩
  · have whole := value_digits n
    rwa [parts, value_append, value_replicate_zero, List.length_replicate, Nat.add_zero] at whole
  · rw [parts, List.length_append, List.length_replicate]
  · cases kept with
    | nil =>
      -- Zeros alone would have no value.
      rw [parts, List.nil_append] at spelled
      have zero : first ∈ List.replicate zeros Digit.zero := spelled ▸ List.mem_cons_self
      exact absurd (List.eq_of_mem_replicate zero) significant
    | cons head tail =>
      rw [spelled, List.cons_append] at parts
      obtain ⟨rfl, -⟩ := List.cons_eq_cons.mp parts
      exact ⟨first, tail, rfl, significant⟩

/-- A multiple of a power of ten that is not above a range is not above it as a whole number
either. -/
theorem mul_le_high {range : Interval} {power : Int} {kept zeros raised : Nat}
    (within : kept * 10 ^ zeros * (range.inUnits power).den ≤ (range.inUnits power).high)
    (raisedBy : power + zeros = raised) : kept * 10 ^ raised * range.den ≤ range.high := by
  change kept * 10 ^ zeros * (range.den * 10 ^ power.toNat) ≤
    range.high * 10 ^ (-power).toNat at within
  have unit : 0 < 10 ^ (-power).toNat := Nat.pow_pos (by decide)
  have powers : 10 ^ raised * 10 ^ (-power).toNat = 10 ^ zeros * 10 ^ power.toNat := by
    rw [← pow_add, ← pow_add]
    congr 1
    omega
  refine Nat.le_of_mul_le_mul_right ?_ unit
  calc kept * 10 ^ raised * range.den * 10 ^ (-power).toNat
      = kept * range.den * (10 ^ raised * 10 ^ (-power).toNat) := by ring
    _ = kept * 10 ^ zeros * (range.den * 10 ^ power.toNat) := by rw [powers]; ring
    _ ≤ range.high * 10 ^ (-power).toNat := within

end Shortest

open Shortest

/-- The digits and the exponent of a size that is written as something other than zero. -/
structure Significant (size : Size) (number : Scientific) : Prop where
  begins : ∃ first rest, number.digits = first :: rest ∧ first ≠ Digit.zero
  short : number.digits.length ≤ 18
  small : value number.digits ≤ 10 ^ 17
  /-- Digits that stand for a whole number do not stand for one above those that round to the
  size. -/
  below : ∀ zeros : Nat, number.exponent = number.digits.length - 1 + zeros →
    value number.digits * 10 ^ zeros * (interval size).den ≤ (interval size).high

theorem interval_den_pos (size : Size) : 0 < (interval size).den :=
  Nat.mul_pos (by decide) Size.denominator_pos

/-- A size other than zero has a centre other than zero. -/
theorem interval_centre_pos {size : Size} (nonzero : size.place ≠ 0) :
    0 < (interval size).centre := by
  have significand : 0 < size.significand := by
    unfold Size.significand
    split
    · omega
    · exact Nat.add_pos_left (by decide) _
  exact Nat.mul_pos (Nat.mul_pos (by decide) significand) (Nat.two_pow_pos _)

/-- A size is written as zero or with significant digits. -/
theorem shortest_eq_or_significant (size : Size) :
    shortest size = ⟨[Digit.zero], 0⟩ ∨ Significant size (shortest size) := by
  unfold shortest
  dsimp only
  split
  · exact .inl rfl
  rename_i nonzero
  split
  · exact .inl rfl
  rename_i found
  right
  obtain ⟨further, inside, chosen⟩ := List.exists_of_findSome?_eq_some found
  obtain ⟨multiple, onGrid, same⟩ := Option.map_eq_some_iff.mp chosen
  obtain ⟨rfl, rfl⟩ := Prod.mk.inj same
  have few : further < 17 := List.mem_range.mp inside
  have bounds := onGrid?_bounds (interval_centre_pos nonzero) (interval_den_pos size) onGrid
  have most : multiple ≤ 10 ^ 17 :=
    bounds.2.trans (Nat.pow_le_pow_right (by decide) few)
  have holds := le_high_of_holds (onGrid?_eq_some onGrid).2
  obtain ⟨zeros, valued, length, begins⟩ := withoutTrailingZeros_digits bounds.1
  refine ⟨begins, ?_, ?_, fun raised exponent => ?_⟩
  · have least := (length_digits_bounds bounds.1).1
    have lengths : (digits multiple).length - 1 ≤ 17 :=
      (Nat.pow_le_pow_iff_right (by decide)).mp (least.trans most)
    dsimp only
    omega
  · have unit : 0 < 10 ^ zeros := Nat.pow_pos (by decide)
    exact (Nat.le_mul_of_pos_right _ unit).trans (valued.le.trans most)
  · dsimp only at exponent
    rw [length] at exponent
    push_cast at exponent
    exact mul_le_high (valued.symm ▸ holds) (by omega)

end EventRelay.Decimal
