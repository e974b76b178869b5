import EventRelay.Text.Utf8
import Mathlib

/-!
# Texts are ordered as their bytes

A character that comes before another one has bytes that come before those of the other, whatever
follows either, so no text has to be decoded to be put in order: the order of texts is that of their
UTF-8 bytes.
-/

namespace EventRelay.Text.Utf8

/-- Numbers of one byte are ordered as bytes. -/
theorem byte_lt_iff {a b : Nat} (first : a < 256) (second : b < 256) :
    UInt8.ofNat a < UInt8.ofNat b ↔ a < b := by
  rw [UInt8.lt_iff_toNat_lt, UInt8.toNat_ofNat_of_lt' first, UInt8.toNat_ofNat_of_lt' second]

/-- Numbers of one byte are equal as bytes only where they are equal. -/
theorem byte_inj {a b : Nat} (first : a < 256) (second : b < 256) :
    UInt8.ofNat a = UInt8.ofNat b ↔ a = b := by
  rw [← UInt8.toNat_inj, UInt8.toNat_ofNat_of_lt' first, UInt8.toNat_ofNat_of_lt' second]

/-- A smaller number is smaller before its last six bits, or else in them. -/
theorem lt_before_or_in_last {v w : Nat} (less : v < w) :
    v / 64 < w / 64 ∨ v / 64 = w / 64 ∧ v % 64 < w % 64 := by
  omega

/-- The bytes of a character that comes before another one come before those of the other, whatever
follows. -/
theorem encodeChar_append_lt {c d : Char} (less : c < d) (rest more : Bytes) :
    String.utf8EncodeChar c ++ rest < String.utf8EncodeChar d ++ more := by
  have value : c.val.toNat < d.val.toNat := less
  have bound : d.val.toNat < 0x110000 := by
    rcases d.valid with low | high <;> omega
  unfold String.utf8EncodeChar
  dsimp only
  generalize c.val.toNat = v at *
  generalize d.val.toNat = w at *
  by_cases long : 0xffff < v
  · -- Both take four bytes: the first byte in which they differ holds the first bits that differ.
    have twice : ∀ number : Nat, number / 64 / 64 = number / 4096 :=
      fun number => Nat.div_div_eq_div_mul number 64 64
    have thrice : ∀ number : Nat, number / 4096 / 64 = number / 262144 :=
      fun number => Nat.div_div_eq_div_mul number 4096 64
    simp only [show ¬ v ≤ 0x7f by omega, show ¬ v ≤ 0x7ff by omega, show ¬ v ≤ 0xffff by omega,
      show ¬ w ≤ 0x7f by omega, show ¬ w ≤ 0x7ff by omega, show ¬ w ≤ 0xffff by omega, if_false]
    simp (disch := omega) only [List.cons_append, List.nil_append, List.cons_lt_cons_iff,
      byte_lt_iff, byte_inj]
    rcases lt_before_or_in_last value with ahead | ⟨same, last⟩
    · rcases lt_before_or_in_last ahead with ahead | ⟨same, last⟩
      · rw [twice, twice] at ahead
        rcases lt_before_or_in_last ahead with ahead | ⟨same, last⟩
        · rw [thrice, thrice] at ahead
          omega
        · omega
      · omega
    · omega
  · split_ifs <;>
      simp (disch := omega) only [List.cons_append, List.nil_append, List.cons_lt_cons_iff,
        byte_lt_iff, byte_inj] <;>
      omega

/-- A list of characters that comes before another one has bytes that come before those of the
other. -/
theorem flatMap_encodeChar_lt {first second : List Char} (less : first < second) :
    first.flatMap String.utf8EncodeChar < second.flatMap String.utf8EncodeChar := by
  induction less with
  | @nil c rest =>
    have filled : String.utf8EncodeChar c ≠ [] := String.utf8EncodeChar_ne_nil
    obtain ⟨byte, bytes, encoded⟩ := List.exists_cons_of_ne_nil filled
    rw [List.flatMap_cons, encoded]
    exact List.nil_lt_cons byte _
  | rel before => exact encodeChar_append_lt before _ _
  | cons less inductionHypothesis => exact List.append_left_lt inductionHypothesis

/-- Texts are in the order of their bytes. -/
theorem encode_lt_iff {first second : String} : encode first < encode second ↔ first < second := by
  constructor
  · intro less
    by_contra other
    rcases (not_lt.mp other).lt_or_eq with before | rfl
    · exact List.lt_asymm less (flatMap_encodeChar_lt (String.lt_iff_toList_lt.mp before))
    · exact List.lt_irrefl _ less
  · exact fun less => flatMap_encodeChar_lt (String.lt_iff_toList_lt.mp less)

end EventRelay.Text.Utf8
