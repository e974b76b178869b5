import EventRelay.Json.Number
import EventRelay.Proofs.Decimal.Shortest
import EventRelay.Proofs.Json.Lexing

/-!
# Every number that is written can be read

An integer is read back exactly. A floating-point number is read as one that may differ in its last
bit, because its digits are scaled by a rounded power of ten, but it is never out of range: digits
that round to a size below the largest one stay below it by so much that two more roundings do not
lead beyond it, and the largest one itself is read back.
-/

namespace EventRelay

open EventRelay.Decimal (Digit Size Scientific)

namespace Json

/-! ## Numerals of floating-point numbers -/

/-- A number with significant digits is written in a proper numeral without an exponent. -/
theorem proper_positional (negative : Bool) {number : Scientific}
    (begins : ∃ first rest, number.digits = first :: rest ∧ first ≠ Digit.zero) :
    (positional negative number).Proper := by
  obtain ⟨first, rest, spelled, nonzero⟩ := begins
  unfold positional
  dsimp only
  split
  · exact ⟨.inl rfl, by simp⟩
  · rw [spelled, List.cons_append, List.take_succ_cons]
    exact ⟨.inr ⟨first, _, rfl, nonzero⟩, by simp⟩

/-- A number with significant digits is written in a proper numeral with an exponent. -/
theorem proper_withExponent (negative : Bool) {number : Scientific}
    (begins : ∃ first rest, number.digits = first :: rest ∧ first ≠ Digit.zero) :
    (withExponent negative number).Proper := by
  obtain ⟨first, rest, spelled, nonzero⟩ := begins
  refine ⟨.inr ⟨first, [], ?_, nonzero⟩, ?_⟩
  · rw [withExponent, spelled]
    rfl
  · intro exponent given
    obtain rfl := Option.mem_some_iff.mp given
    exact Decimal.digits_ne_nil _

/-! ## Gathering digits -/

/-- The digits of a whole part are gathered completely where 64 bits hold them. -/
theorem gatherWhole_eq {significand : Nat} {ds : List Digit}
    (fits : significand * 10 ^ ds.length + Decimal.value ds < wordLimit) :
    gatherWhole significand ds = ⟨significand * 10 ^ ds.length + Decimal.value ds, 0⟩ := by
  induction ds generalizing significand with
  | nil => simp [gatherWhole, Decimal.value]
  | cons digit rest inductionHypothesis =>
    rw [Decimal.value_cons, List.length_cons, pow_succ] at fits ⊢
    have next : significand * (10 ^ rest.length * 10) +
        (digit.val * 10 ^ rest.length + Decimal.value rest) =
          (significand * 10 + digit.val) * 10 ^ rest.length + Decimal.value rest := by ring
    rw [next] at fits ⊢
    have least : significand * 10 + digit.val ≤
        (significand * 10 + digit.val) * 10 ^ rest.length :=
      Nat.le_mul_of_pos_right _ (Nat.pow_pos (by decide))
    rw [gatherWhole, if_pos (by omega), inductionHypothesis fits]

/-- The digits of a fraction are gathered completely where 64 bits hold them. -/
theorem gatherFraction_eq {gathered : Gathered} {ds : List Digit}
    (fits : gathered.significand * 10 ^ ds.length + Decimal.value ds < wordLimit) :
    gatherFraction gathered ds =
      ⟨gathered.significand * 10 ^ ds.length + Decimal.value ds, gathered.power - ds.length⟩ := by
  induction ds generalizing gathered with
  | nil => simp [gatherFraction, Decimal.value]
  | cons digit rest inductionHypothesis =>
    rw [Decimal.value_cons, List.length_cons, pow_succ] at fits ⊢
    have next : gathered.significand * (10 ^ rest.length * 10) +
        (digit.val * 10 ^ rest.length + Decimal.value rest) =
          (gathered.significand * 10 + digit.val) * 10 ^ rest.length + Decimal.value rest := by
      ring
    rw [next] at fits ⊢
    have least : gathered.significand * 10 + digit.val ≤
        (gathered.significand * 10 + digit.val) * 10 ^ rest.length :=
      Nat.le_mul_of_pos_right _ (Nat.pow_pos (by decide))
    rw [gatherFraction, if_pos (by omega), inductionHypothesis fits]
    congr 1
    push_cast
    ring

/-- Gathering a fraction never raises the power. -/
theorem power_gatherFraction_le (gathered : Gathered) (ds : List Digit) :
    (gatherFraction gathered ds).power ≤ gathered.power := by
  induction ds generalizing gathered with
  | nil => exact le_rfl
  | cons digit rest inductionHypothesis =>
    rw [gatherFraction]
    split
    · have lower := inductionHypothesis
        ⟨gathered.significand * 10 + digit.val, gathered.power - 1⟩
      dsimp only at lower
      omega
    · exact le_rfl

/-! ## Scaling -/

/-- Scaling by a negative power is never out of range. -/
theorem exists_scaled?_of_neg (size : Size) {power : Int} (negative : power < 0) :
    ∃ scaled, scaled? size power = some scaled :=
  ⟨_, if_pos negative⟩

/-- The largest size. -/
def largest : Size :=
  ⟨Decimal.sizeCount - 1, by decide⟩

/-- The size before the largest one. -/
def penultimate : Size :=
  ⟨Decimal.sizeCount - 2, by decide⟩

/-- The number half way between the two largest sizes. -/
def halfway : Nat :=
  (Nat.pow 2 54 - 3) * Nat.pow 2 970

/-- The numbers that round to the size before the largest one end half way to the largest. -/
theorem high_penultimate : (Decimal.Shortest.interval penultimate).high =
    halfway * (Decimal.Shortest.interval penultimate).den := by
  decide +kernel

/-- The numbers that round to any size but the largest one end half way to the largest. -/
theorem high_le {size : Size} (below : size ≠ largest) :
    (Decimal.Shortest.interval size).high ≤
      halfway * (Decimal.Shortest.interval size).den := by
  have before : size.place ≤ penultimate.place := by
    have bound := size.finite
    have different : size.place ≠ largest.place := fun same =>
      below (by cases size; cases same; rfl)
    change size.place ≠ Decimal.sizeCount - 1 at different
    change size.place ≤ Decimal.sizeCount - 2
    generalize Decimal.sizeCount = count at bound different ⊢
    omega
  have numerators := Size.numerator_mono before
  have scales : size.scale ≤ penultimate.scale :=
    Nat.sub_le_sub_right (Nat.div_le_div_right before) 1
  have units : ∀ scale ≥ size.scale, Nat.pow 2 size.scale ≤ Nat.pow 2 scale := fun _ above =>
    Nat.pow_le_pow_right (by decide) above
  have parts : ∀ other : Size, (Decimal.Shortest.interval other).high =
      4 * other.numerator + 2 * Nat.pow 2 other.scale := fun other =>
    (Nat.add_mul (4 * other.significand) 2 _).trans (by rw [Size.numerator, Nat.mul_assoc])
  calc (Decimal.Shortest.interval size).high
      ≤ (Decimal.Shortest.interval penultimate).high := by
        rw [parts, parts]
        exact Nat.add_le_add (Nat.mul_le_mul_left 4 numerators)
          (Nat.mul_le_mul_left 2 (units _ scales))
    _ = halfway * (Decimal.Shortest.interval penultimate).den := high_penultimate

/-- The greatest number of at most seventeen digits, a round one aside, that the power of ten leaves
below half way to the largest size. -/
def greatest (power : Nat) : Nat :=
  min (halfway / Nat.pow 10 power) (Nat.pow 10 17)

/-- From the power on at which seventeen digits reach the largest size, the greatest number is
scaled within range. -/
theorem scaled_greatest : ∀ more < 18,
    ((Size.ofNat? (greatest (291 + more))).bind fun size =>
      size.mul? (tenTo (291 + more))).isSome = true := by
  decide +kernel

/-- At the last power before that seventeen digits do not reach the largest size. -/
theorem greatest_least : greatest 291 = 10 ^ 17 := by
  decide +kernel

theorem tenPow_le {power other : Nat} (below : power ≤ other) :
    Nat.pow 10 power ≤ Nat.pow 10 other :=
  Nat.pow_le_pow_right (by decide) below

/-- The last power of ten that is in range as a size. -/
theorem tenPow_inRange : ∀ last, last = 308 → (Size.ofNat? (Nat.pow 10 last)).isSome = true := by
  rintro _ rfl
  decide +kernel

/-- The first power of ten that is not. -/
theorem halfway_lt_tenPow : ∀ first, first = 309 → halfway < Nat.pow 10 first := by
  rintro _ rfl
  decide +kernel

/-- The powers of ten that are in range as sizes are in order. -/
theorem place_tenTo_le {power other : Nat} (below : power ≤ other) (inRange : other ≤ 308) :
    (tenTo power).place ≤ (tenTo other).place := by
  obtain ⟨last, lastIs⟩ : ∃ last, last = 308 := ⟨_, rfl⟩
  obtain ⟨size, rounded⟩ := Option.isSome_iff_exists.mp (tenPow_inRange last lastIs)
  obtain ⟨later, roundedLater, _⟩ :=
    Size.exists_ofNat? (tenPow_le (lastIs ▸ inRange)) rounded
  obtain ⟨sooner, roundedSooner, order⟩ :=
    Size.exists_ofNat? (tenPow_le below) roundedLater
  have atPower : tenTo power = sooner := by
    rw [tenTo]
    exact congrArg (Option.getD · Size.zero) roundedSooner
  have atOther : tenTo other = later := by
    rw [tenTo]
    exact congrArg (Option.getD · Size.zero) roundedLater
  rw [atPower, atOther]
  exact order

/-- Half way to the largest size a number has at most 309 digits. -/
theorem power_le_of_le_halfway {significand power : Nat} (positive : 0 < significand)
    (below : significand * 10 ^ power ≤ halfway) : power ≤ 308 := by
  by_contra beyond
  have least : 10 ^ power ≤ halfway := (Nat.le_mul_of_pos_left _ positive).trans below
  obtain ⟨first, firstIs⟩ : ∃ first, first = 309 := ⟨_, rfl⟩
  have more : Nat.pow 10 first ≤ Nat.pow 10 power := tenPow_le (by omega)
  exact lt_irrefl _ ((halfway_lt_tenPow first firstIs).trans_le (more.trans least))

/-- At most seventeen digits that stand for a number half way to the largest size or below are
scaled within range. -/
theorem exists_scaled?_of_le {significand power : Nat} (positive : 0 < significand)
    (short : significand ≤ 10 ^ 17) (below : significand * 10 ^ power ≤ halfway) :
    ∃ scaled, scaled? ((Size.ofNat? significand).getD .zero) power = some scaled := by
  have inRange := power_le_of_le_halfway positive below
  obtain ⟨more, few, later, bounded⟩ :
      ∃ more < 18, power ≤ 291 + more ∧ significand ≤ greatest (291 + more) := by
    by_cases high : 291 ≤ power
    · refine ⟨power - 291, by omega, by omega, ?_⟩
      rw [Nat.add_sub_cancel' high]
      exact le_min ((Nat.le_div_iff_mul_le (Nat.pow_pos (by decide))).mpr below) short
    · exact ⟨0, by decide, by omega, short.trans (le_of_eq greatest_least.symm)⟩
  obtain ⟨product, finite⟩ := Option.isSome_iff_exists.mp (scaled_greatest more few)
  obtain ⟨size, rounded, multiplied⟩ := Option.bind_eq_some_iff.mp finite
  obtain ⟨smaller, roundedSmaller, order⟩ := Size.exists_ofNat? bounded rounded
  obtain ⟨scaled, result⟩ :=
    Size.exists_mul? order (place_tenTo_le later (by omega)) multiplied
  refine ⟨scaled, ?_⟩
  rw [roundedSmaller, scaled?, if_neg (by omega), if_pos (by omega)]
  exact result

/-! ## Reading what has been written -/

/-- A numeral whose exponent counts and whose digits are scaled within range is a number. -/
theorem floatOf_of_scaled {numeral : Numeral} {scaled : Size} (exponent : Int)
    (counts : (match numeral.exponent with
      | none => some 0
      | some exponent => exponentValue? exponent) = some exponent)
    (inRange : scaled?
      ((Size.ofNat?
        (gatherFraction (gatherWhole 0 numeral.whole) numeral.fraction).significand).getD .zero)
      ((gatherFraction (gatherWhole 0 numeral.whole) numeral.fraction).power + exponent) =
        some scaled) :
    floatOf numeral = .ok (.float numeral.negative scaled) := by
  unfold floatOf
  dsimp only
  split
  · rename_i found given
    obtain rfl := Option.some.inj (given.symm.trans counts)
    rw [inRange]
  · rename_i given
    exact absurd (given.symm.trans counts) (by simp)

/-- A numeral with a point or an exponent stands for a floating-point number. -/
theorem numberOf_eq_floatOf {numeral : Numeral}
    (marked : numeral.fraction ≠ [] ∨ numeral.exponent ≠ none) :
    numberOf numeral = floatOf numeral := by
  rw [numberOf, if_neg]
  rcases marked with point | exponent
  · simp [point]
  · simp [exponent]

/-- The first digit of a fraction lowers the power. -/
theorem power_gatherFraction_lt {gathered : Gathered} {ds : List Digit} (nonempty : ds ≠ [])
    (fits : gathered.significand * 10 + 9 < wordLimit) :
    (gatherFraction gathered ds).power < gathered.power := by
  obtain ⟨digit, rest, rfl⟩ := List.exists_cons_of_ne_nil nonempty
  have first : gathered.significand * 10 + digit.val < wordLimit := by omega
  rw [gatherFraction, if_pos first]
  have lower := power_gatherFraction_le
    ⟨gathered.significand * 10 + digit.val, gathered.power - 1⟩ rest
  dsimp only at lower
  omega

/-- A number of at most sixteen whole digits is in range in a numeral without an exponent. -/
theorem exists_numberOf_positional (negative : Bool) {number : Scientific}
    (begins : number.digits ≠ []) (few : number.exponent ≤ 15) :
    ∃ size, numberOf (positional negative number) = .ok (.float negative size) := by
  obtain ⟨whole, fraction, form, short, point⟩ :
      ∃ whole fraction, positional negative number = ⟨negative, whole, fraction, none⟩ ∧
        whole.length ≤ 16 ∧ fraction ≠ [] := by
    unfold positional
    dsimp only
    split
    · exact ⟨_, _, rfl, by simp, by simp [begins]⟩
    · refine ⟨_, _, rfl, ?_, ?_⟩
      · rw [List.length_take]
        omega
      · unfold atLeastZero
        split <;> simp_all
  have small : Decimal.value whole < 10 ^ 16 :=
    (Decimal.value_lt whole).trans_le (Nat.pow_le_pow_right (by decide) short)
  have gathered : gatherWhole 0 whole = ⟨Decimal.value whole, 0⟩ := by
    rw [gatherWhole_eq] <;> rw [Nat.zero_mul, Nat.zero_add]
    exact small.trans (by decide)
  have lower : (gatherFraction ⟨Decimal.value whole, 0⟩ fraction).power < 0 :=
    power_gatherFraction_lt point (by rw [wordLimit]; dsimp only; omega)
  obtain ⟨size, scaled⟩ := exists_scaled?_of_neg
    ((Size.ofNat? (gatherFraction ⟨Decimal.value whole, 0⟩ fraction).significand).getD .zero) lower
  rw [form, numberOf_eq_floatOf (.inl point)]
  refine ⟨size, floatOf_of_scaled 0 rfl ?_⟩
  rw [gathered, Int.add_zero]
  exact scaled

/-- The exponent of a number that is written counts where it is not beyond 32 bits. -/
theorem exponentValue?_spelled {exponent : Int} (counts : exponent.natAbs < exponentLimit) :
    exponentValue? ⟨exponent < 0, Decimal.digits exponent.natAbs⟩ = some exponent := by
  rw [exponentValue?]
  dsimp only
  rw [Decimal.value_digits, if_pos counts]
  congr 1
  simp only [decide_eq_true_eq]
  split <;> omega

/-- The numeral of the largest size is in range. -/
theorem exists_numberOf_largest (negative : Bool) :
    ∃ size, numberOf (withExponent negative (Decimal.shortest largest)) =
      .ok (.float negative size) := by
  obtain ⟨digits, digitsDef⟩ : ∃ digits : List Digit,
    digits = [7, 9, 7, 6, 9, 3, 1, 3, 4, 8, 6, 2, 3, 1, 5, 7] := ⟨_, rfl⟩
  have spelled : Decimal.shortest largest = ⟨1 :: digits, 308⟩ := by
    subst digitsDef
    decide +kernel
  have gathered : gatherFraction (gatherWhole 0 [1]) digits = ⟨17976931348623157, -16⟩ := by
    subst digitsDef
    rfl
  have inRange : (scaled? ((Size.ofNat? 17976931348623157).getD .zero) (-16 + 308)).isSome =
      true := by
    decide +kernel
  obtain ⟨size, scaled⟩ := Option.isSome_iff_exists.mp inRange
  rw [spelled, numberOf_eq_floatOf (.inr (by simp [withExponent]))]
  have counts : (308 : Int).natAbs < exponentLimit := by decide
  refine ⟨size, floatOf_of_scaled 308 (exponentValue?_spelled counts) ?_⟩
  change scaled? ((Size.ofNat? (gatherFraction (gatherWhole 0 [1]) digits).significand).getD
    .zero) ((gatherFraction (gatherWhole 0 [1]) digits).power + 308) = some size
  rw [gathered]
  exact scaled

/-- One whole digit and a negative exponent make a numeral that is in range. -/
theorem exists_floatOf_of_neg (negative : Bool) (first : Digit) (rest : List Digit)
    {exponent : Int} (below : exponent < 0) :
    ∃ size, floatOf ⟨negative, [first], rest,
      some ⟨exponent < 0, Decimal.digits exponent.natAbs⟩⟩ = .ok (.float negative size) := by
  have lower : (gatherFraction (gatherWhole 0 [first]) rest).power + exponent < 0 := by
    have power : (gatherWhole 0 [first]).power = 0 := by
      rw [gatherWhole_eq]
      have digit := first.isLt
      simp only [Decimal.value_cons, wordLimit, List.length_nil]
      simp [Decimal.value]
      omega
    have bound := power_gatherFraction_le (gatherWhole 0 [first]) rest
    omega
  by_cases counts : exponent.natAbs < exponentLimit
  · obtain ⟨size, scaled⟩ := exists_scaled?_of_neg _ lower
    exact ⟨size, floatOf_of_scaled exponent (exponentValue?_spelled counts) scaled⟩
  · have beyond : exponentValue? ⟨exponent < 0, Decimal.digits exponent.natAbs⟩ = none := by
      rw [exponentValue?]
      dsimp only
      rw [Decimal.value_digits, if_neg counts]
    refine ⟨.zero, ?_⟩
    unfold floatOf
    dsimp only
    rw [beyond]
    simp [below]

/-- Digits that round to a size are in range in a numeral with an exponent. -/
theorem exists_numberOf_withExponent (negative : Bool) {size : Size}
    (significant : Decimal.Significant size (Decimal.shortest size)) :
    ∃ reread, numberOf (withExponent negative (Decimal.shortest size)) =
      .ok (.float negative reread) := by
  by_cases last : size = largest
  · exact last ▸ exists_numberOf_largest negative
  generalize Decimal.shortest size = number at significant
  obtain ⟨⟨first, rest, spelled, nonzero⟩, short, small, below⟩ := significant
  obtain ⟨digits, exponent⟩ := number
  dsimp only at spelled short small below
  subst spelled
  rw [numberOf_eq_floatOf (.inr (by simp [withExponent]))]
  rcases lt_or_ge exponent 0 with negativeExponent | positive
  · exact exists_floatOf_of_neg negative first rest negativeExponent
  have fits : Decimal.value (first :: rest) < wordLimit := small.trans_lt (by decide)
  have parted : first.val * 10 ^ rest.length + Decimal.value rest =
      Decimal.value (first :: rest) := (Decimal.value_cons first rest).symm
  have gathered : gatherFraction (gatherWhole 0 [first]) rest =
      ⟨Decimal.value (first :: rest), -rest.length⟩ := by
    have whole : gatherWhole 0 [first] = ⟨first.val, 0⟩ := by
      have digit := first.isLt
      rw [gatherWhole_eq] <;> simp [Decimal.value, wordLimit]
      omega
    rw [whole, gatherFraction_eq] <;> rw [parted]
    · rw [Int.zero_sub]
    · exact fits
  obtain ⟨reread, counts, scaled⟩ : ∃ reread, exponent.natAbs < exponentLimit ∧
      scaled? ((Size.ofNat? (Decimal.value (first :: rest))).getD .zero)
        (-rest.length + exponent) = some reread := by
    rw [List.length_cons] at short below
    rcases lt_or_ge (-(rest.length : Int) + exponent) 0 with fractional | raised
    · obtain ⟨reread, scaled⟩ := exists_scaled?_of_neg
        ((Size.ofNat? (Decimal.value (first :: rest))).getD .zero) fractional
      exact ⟨reread, by rw [exponentLimit]; omega, scaled⟩
    · obtain ⟨zeros, total⟩ := Int.eq_ofNat_of_zero_le raised
      have bound : Decimal.value (first :: rest) * 10 ^ zeros ≤ halfway :=
        Nat.le_of_mul_le_mul_right ((below zeros (by push_cast; omega)).trans (high_le last))
          (Decimal.interval_den_pos size)
      have significand : 0 < Decimal.value (first :: rest) :=
        (Nat.pow_pos (by decide)).trans_le (Decimal.le_value_cons nonzero rest)
      have zerosInRange := power_le_of_le_halfway significand bound
      obtain ⟨reread, scaled⟩ := exists_scaled?_of_le significand small bound
      exact ⟨reread, by rw [exponentLimit]; omega, total ▸ scaled⟩
  refine ⟨reread, floatOf_of_scaled exponent (exponentValue?_spelled counts) ?_⟩
  change scaled? ((Size.ofNat? (gatherFraction (gatherWhole 0 [first]) rest).significand).getD
    .zero) ((gatherFraction (gatherWhole 0 [first]) rest).power + exponent) = some reread
  rw [gathered]
  exact scaled

/-- The numeral of every floating-point number is in range, and is read with its sign. -/
theorem exists_numberOf_floatNumeral (negative : Bool) (size : Size) :
    ∃ reread, numberOf (floatNumeral negative size) = .ok (.float negative reread) := by
  rcases Decimal.shortest_eq_or_significant size with zero | significant
  · rw [floatNumeral, zero]
    exact @exists_numberOf_positional negative ⟨[Digit.zero], 0⟩ (by simp) (by decide)
  · unfold floatNumeral
    dsimp only
    split
    · rename_i range
      obtain ⟨first, rest, spelled, _⟩ := significant.begins
      exact exists_numberOf_positional negative (by simp [spelled]) range.2
    · exact exists_numberOf_withExponent negative significant

/-- The numeral of every floating-point number is proper. -/
theorem proper_floatNumeral (negative : Bool) (size : Size) :
    (floatNumeral negative size).Proper := by
  rcases Decimal.shortest_eq_or_significant size with zero | significant
  · rw [floatNumeral, zero]
    exact ⟨.inl rfl, by simp [positional]⟩
  · unfold floatNumeral
    dsimp only
    split
    · exact proper_positional negative significant.begins
    · exact proper_withExponent negative significant.begins

end Json

namespace Number

/-- A number that is read back from its numeral. -/
structure Readable (number : Number) : Prop where
  proper : number.numeral.Proper
  read : Json.numberOf number.numeral = .ok number

/-- Holds for integers. -/
def isInteger : Number → Bool
  | .integer _ => true
  | .float .. => false

/-- Integers are read back. -/
theorem readable_integer (value : Integer) : (Number.integer value).Readable where
  proper := by
    refine ⟨?_, fun _ given => ?_⟩
    · by_cases zero : value.value = 0
      · left
        simp [numeral, Json.integerNumeral, zero, Decimal.digits_zero]
      · right
        exact Decimal.digits_of_pos value.value.natAbs (by omega)
    · simp [numeral, Json.integerNumeral] at given
  read := by
    obtain ⟨value, atLeast, below⟩ := value
    have magnitude := Decimal.value_digits value.natAbs
    have signed : (if value < 0 then -(value.natAbs : Int) else (value.natAbs : Int)) = value := by
      split <;> omega
    have noMinusZero : ¬ (value < 0 ∧ value.natAbs = 0) := by omega
    simp only [numeral, Json.integerNumeral, Json.numberOf, List.isEmpty_nil, Option.isNone_none,
      and_self, if_true, magnitude, decide_eq_true_eq, noMinusZero, if_false, signed,
      Integer.ofInt?, atLeast, below, dif_pos]

theorem readable_of_isInteger {number : Number} (integer : number.isInteger = true) :
    number.Readable := by
  cases number with
  | integer value => exact readable_integer value
  | float _ _ => simp [isInteger] at integer

/-- The number that a number is read back as. -/
def reread (number : Number) : Number :=
  match Json.numberOf number.numeral with
  | .ok found => found
  | .error _ => number

/-- Every number is read back. -/
theorem numberOf_numeral (number : Number) :
    Json.numberOf number.numeral = .ok number.reread := by
  have found : ∃ found, Json.numberOf number.numeral = .ok found := by
    cases number with
    | integer value => exact ⟨_, (readable_integer value).read⟩
    | float negative size =>
      obtain ⟨size, read⟩ := Json.exists_numberOf_floatNumeral negative size
      exact ⟨_, read⟩
  obtain ⟨found, read⟩ := found
  rw [reread, read]

theorem Readable.reread_eq {number : Number} (readable : number.Readable) :
    number.reread = number := by
  rw [reread, readable.read]

/-- Every number is written in a proper numeral. -/
theorem proper_numeral (number : Number) : number.numeral.Proper := by
  cases number with
  | integer value => exact (readable_integer value).proper
  | float negative size => exact Json.proper_floatNumeral negative size

end Number

end EventRelay
