import EventRelay.Decimal.Digits
import Mathlib

/-!
# Digits and their value

Reading digits is Horner's rule, so digits behind others multiply what stands before them by a power
of ten. The digits of a number have the number as their value, and the first of them is zero only
for zero. As many digits are in the order of their values, as characters too.
-/

namespace EventRelay.Decimal

/-! ## The value of digits -/

/-- Reading goes on from the value so far. -/
theorem foldl_value (start : Nat) (ds : List Digit) :
    ds.foldl (fun sum digit => 10 * sum + digit.val) start =
      start * 10 ^ ds.length + value ds := by
  unfold value
  induction ds generalizing start with
  | nil => simp
  | cons digit rest inductionHypothesis =>
    rw [List.foldl_cons, List.foldl_cons, inductionHypothesis,
      inductionHypothesis (10 * 0 + digit.val), List.length_cons, pow_succ]
    ring

/-- Digits behind others raise their value by a power of ten for each of them. -/
theorem value_append (first second : List Digit) :
    value (first ++ second) = value first * 10 ^ second.length + value second := by
  rw [value, List.foldl_append, foldl_value]
  rfl

theorem value_cons (digit : Digit) (rest : List Digit) :
    value (digit :: rest) = digit.val * 10 ^ rest.length + value rest := by
  simpa [value] using value_append [digit] rest

/-- Zeros have no value. -/
theorem value_replicate_zero (count : Nat) : value (List.replicate count Digit.zero) = 0 := by
  induction count with
  | zero => rfl
  | succ count inductionHypothesis =>
    rw [List.replicate_succ, value_cons, inductionHypothesis]
    simp [Digit.zero]

/-- So many digits stay below that power of ten. -/
theorem value_lt (ds : List Digit) : value ds < 10 ^ ds.length := by
  induction ds with
  | nil => decide
  | cons digit rest inductionHypothesis =>
    have bound : digit.val * 10 ^ rest.length ≤ 9 * 10 ^ rest.length :=
      Nat.mul_le_mul_right _ (by omega)
    rw [value_cons, List.length_cons, pow_succ]
    omega

/-- Digits that do not begin with zero reach the power of ten at their first digit. -/
theorem le_value_cons {first : Digit} (nonzero : first ≠ Digit.zero) (rest : List Digit) :
    10 ^ rest.length ≤ value (first :: rest) := by
  have positive : 1 ≤ first.val := by
    by_contra small
    exact nonzero (Fin.ext (by simp only [Digit.zero]; omega))
  rw [value_cons]
  have least : 1 * 10 ^ rest.length ≤ first.val * 10 ^ rest.length :=
    Nat.mul_le_mul_right _ positive
  omega

/-! ## The digits of a number -/

/-- The digits of a number have the number as their value. -/
theorem value_digits (n : Nat) : value (digits n) = n := by
  induction n using Nat.strongRecOn with
  | ind n inductionHypothesis =>
    rw [digits]
    split
    · rename_i small
      simp [value, Nat.mod_eq_of_lt small]
    · rename_i large
      have front := inductionHypothesis (n / 10) (by omega)
      unfold value at front ⊢
      rw [List.foldl_append, front]
      simp only [List.foldl_cons, List.foldl_nil, Fin.val_ofNat]
      omega

/-- The digits of a positive number do not begin with zero. -/
theorem digits_of_pos (n : Nat) (positive : 0 < n) :
    ∃ first rest, digits n = first :: rest ∧ first ≠ Digit.zero := by
  induction n using Nat.strongRecOn with
  | ind n inductionHypothesis =>
    rw [digits]
    split
    · rename_i small
      refine ⟨_, [], rfl, fun zero => ?_⟩
      have digit := congrArg Fin.val zero
      simp only [Fin.val_ofNat, Nat.mod_eq_of_lt small, Digit.zero] at digit
      omega
    · rename_i large
      obtain ⟨first, rest, front, nonzero⟩ := inductionHypothesis (n / 10) (by omega) (by omega)
      exact ⟨first, rest ++ [Fin.ofNat 10 (n % 10)], by rw [front, List.cons_append], nonzero⟩

/-- Zero has one digit. -/
theorem digits_zero : digits 0 = [Digit.zero] := by
  rw [digits]
  rfl

theorem digits_ne_nil (n : Nat) : digits n ≠ [] := by
  rw [digits]
  split <;> simp

/-- A positive number lies between the powers of ten at and before its first digit. -/
theorem length_digits_bounds {n : Nat} (positive : 0 < n) :
    10 ^ ((digits n).length - 1) ≤ n ∧ n < 10 ^ (digits n).length := by
  obtain ⟨first, rest, spelled, nonzero⟩ := digits_of_pos n positive
  have least := le_value_cons nonzero rest
  have most := value_lt (digits n)
  rw [value_digits] at most
  rw [← spelled, value_digits] at least
  refine ⟨?_, most⟩
  rw [spelled, List.length_cons, Nat.add_sub_cancel]
  exact least

/-! ## A given number of digits -/

@[simp] theorem length_lastDigits (width n : Nat) : (lastDigits width n).length = width := by
  induction width generalizing n with
  | zero => rfl
  | succ width inductionHypothesis => simp [lastDigits, inductionHypothesis]

/-- The last digits of a number that has no more are its value. -/
theorem value_lastDigits {width n : Nat} (fits : n < 10 ^ width) :
    value (lastDigits width n) = n := by
  induction width generalizing n with
  | zero =>
    rw [pow_zero] at fits
    rw [lastDigits, Nat.lt_one_iff.mp fits]
    rfl
  | succ width inductionHypothesis =>
    rw [pow_succ] at fits
    rw [lastDigits, value_append, inductionHypothesis (by omega)]
    simp only [List.length_singleton, pow_one, value, List.foldl_cons, List.foldl_nil,
      Fin.val_ofNat]
    omega

/-- Digits are the last digits of their value. -/
theorem lastDigits_value (ds : List Digit) : lastDigits ds.length (value ds) = ds := by
  induction ds using List.reverseRecOn with
  | nil => rfl
  | append_singleton front last inductionHypothesis =>
    have bound := last.isLt
    have whole : value (front ++ [last]) = value front * 10 + last.val := by
      rw [value_append]
      simp [value]
    rw [List.length_append, List.length_singleton, lastDigits, whole]
    have quotient : (value front * 10 + last.val) / 10 = value front := by omega
    have remainder : Fin.ofNat 10 ((value front * 10 + last.val) % 10) = last := by
      apply Fin.ext
      simp only [Fin.val_ofNat]
      omega
    rw [quotient, remainder, inductionHypothesis]

/-- The last digits of a number that has no more are its digits behind as many zeros as are
missing. -/
theorem lastDigits_eq_leftpad {width n : Nat} (room : 0 < width) (fits : n < 10 ^ width) :
    lastDigits width n = (digits n).leftpad width Digit.zero := by
  have count : (digits n).length ≤ width := by
    rcases Nat.eq_zero_or_pos n with rfl | positive
    · rw [digits_zero]
      exact room
    · have least := (length_digits_bounds positive).1.trans_lt fits
      have fewer := (Nat.pow_lt_pow_iff_right (by decide : 1 < 10)).mp least
      omega
  have whole : ((digits n).leftpad width Digit.zero).length = width := by
    rw [List.length_leftpad]
    omega
  have padded : value ((digits n).leftpad width Digit.zero) = n := by
    rw [List.leftpad, value_append, value_replicate_zero, value_digits]
    omega
  have spelled := lastDigits_value ((digits n).leftpad width Digit.zero)
  rwa [whole, padded] at spelled

/-! ## Characters of digits -/

/-- A digit is spelled by the one character that stands for it. -/
theorem Digit.char_of_ofChar? {c : Char} {digit : Digit} (stands : Digit.ofChar? c = some digit) :
    digit.char = c := by
  unfold Digit.ofChar? at stands
  split at stands
  · rename_i bound
    obtain rfl := Option.some.inj stands
    simp only [Digit.char, Nat.sub_add_cancel bound.1, Char.ofNat_toNat]
  · simp at stands

/-- The digits of characters that spell digits. -/
theorem digits?_map_char (ds : List Digit) : digits? (ds.map Digit.char) = some ds := by
  unfold digits?
  induction ds with
  | nil => rfl
  | cons digit rest inductionHypothesis =>
    rw [List.map_cons, List.mapM_cons, Digit.ofChar?_char, inductionHypothesis]
    rfl

/-- Characters that stand for digits spell them. -/
theorem map_char_of_digits? {chars : List Char} {ds : List Digit}
    (stand : digits? chars = some ds) : ds.map Digit.char = chars := by
  unfold digits? at stand
  induction chars generalizing ds with
  | nil =>
    obtain rfl : [] = ds := by simpa using stand
    rfl
  | cons c rest inductionHypothesis =>
    rw [List.mapM_cons] at stand
    cases first : Digit.ofChar? c with
    | none => simp [first] at stand
    | some digit =>
      cases others : rest.mapM Digit.ofChar? with
      | none => simp [first, others] at stand
      | some digits =>
        obtain rfl : digit :: digits = ds := by simpa [first, others] using stand
        rw [List.map_cons, Digit.char_of_ofChar? first, inductionHypothesis others]

/-- Different digits have different characters. -/
theorem map_char_injective : Function.Injective (List.map Digit.char) := by
  intro first second same
  have read := congrArg digits? same
  rwa [digits?_map_char, digits?_map_char, Option.some.injEq] at read

/-- The characters of the digits of a number are its decimal text. -/
theorem map_char_digits (n : Nat) : (digits n).map Digit.char = Nat.toDigits 10 n := by
  have spelled : ∀ digit : Digit, digit.char = digit.val.digitChar := by decide
  induction n using Nat.strongRecOn with
  | ind n inductionHypothesis =>
    rw [digits]
    split
    · rename_i small
      rw [Nat.toDigits_of_lt_base small, List.map_singleton, spelled, Fin.val_ofNat,
        Nat.mod_eq_of_lt small]
    · rename_i large
      rw [Nat.toDigits_of_base_le (by decide) (by omega), List.map_append,
        inductionHypothesis (n / 10) (by omega), List.map_singleton, spelled, Fin.val_ofNat,
        Nat.mod_mod]

/-- Digits are in the order of their characters. -/
theorem Digit.char_lt_char {first second : Digit} (less : first < second) :
    first.char < second.char := by
  revert first second
  decide

/-- As many digits are in the order of their values, whatever follows them: the first digit in which
they differ counts for more than all digits behind it. -/
theorem map_char_append_lt {first second : List Digit} (count : first.length = second.length)
    (less : value first < value second) (rest more : List Char) :
    first.map Digit.char ++ rest < second.map Digit.char ++ more := by
  induction first generalizing second with
  | nil =>
    obtain rfl := List.length_eq_zero_iff.mp count.symm
    exact absurd less (Nat.lt_irrefl _)
  | cons digit others inductionHypothesis =>
    cases second with
    | nil => simp at count
    | cons another further =>
      have places : others.length = further.length := by simpa using count
      rw [value_cons, value_cons, ← places] at less
      simp only [List.map_cons, List.cons_append, List.cons_lt_cons_iff]
      rcases lt_trichotomy digit another with before | rfl | behind
      · exact Or.inl (Digit.char_lt_char before)
      · exact Or.inr ⟨rfl, inductionHypothesis places (by omega)⟩
      · -- The digits behind a smaller one would have to make up for a whole power of ten.
        have bound := value_lt further
        have larger : (another.val + 1) * 10 ^ others.length ≤ digit.val * 10 ^ others.length :=
          Nat.mul_le_mul_right _ behind
        rw [← places] at bound
        rw [Nat.add_mul] at larger
        omega

end EventRelay.Decimal
