import EventRelay.Proofs.Decimal.Digits
import EventRelay.Proofs.FilePath
import EventRelay.Store.Commit
import Mathlib

/-!
# Names and versions of commit files

Every version that 64 bits hold has one commit file name, and a file name that stands for a version
is the name of that version.
-/

namespace EventRelay.Commit

open Decimal (Digit)

/-- The characters of a commit file name. -/
theorem toList_name (version : Nat) :
    (name version).toList = (Decimal.lastDigits width version).map Digit.char ++ ending :=
  String.toList_ofList

/-- A version has no more digits than its name. -/
theorem lt_pow_width {version : Nat} (fits : version < versionLimit) : version < 10 ^ width := by
  simp only [versionLimit, width] at fits ⊢
  omega

/-- A version is read back from its name. -/
theorem version?_name {version : Nat} (fits : version < versionLimit) :
    version? (name version) = some version := by
  have digits : ((Decimal.lastDigits width version).map Digit.char).length = width := by simp
  rw [version?, toList_name, List.drop_left' digits, List.take_left' digits, if_pos rfl,
    Decimal.digits?_map_char]
  dsimp only
  rw [Decimal.value_lastDigits (lt_pow_width fits), if_pos fits]

/-- What stands for a version is its name. -/
theorem name_of_version? {text : String} {version : Nat} (stands : version? text = some version) :
    text = name version ∧ version < versionLimit := by
  unfold version? at stands
  dsimp only at stands
  split at stands
  · rename_i ends
    split at stands
    · simp at stands
    · rename_i digits read
      split at stands
      · rename_i fits
        obtain rfl := Option.some.inj stands
        refine ⟨String.toList_injective ?_, fits⟩
        have spelled := Decimal.map_char_of_digits? read
        have long : width ≤ text.toList.length := by
          have tail := congrArg List.length ends
          rw [List.length_drop] at tail
          simp only [ending, List.length_cons, List.length_nil] at tail
          omega
        have count : digits.length = width := by
          rw [← List.length_map Digit.char, spelled, List.length_take, Nat.min_eq_left long]
        rw [toList_name, ← count, Decimal.lastDigits_value, spelled, ← ends, List.take_append_drop]
      · simp at stands
  · simp at stands

/-- The version after one that is not the largest. -/
theorem next_eq {version : Nat} (fits : version + 1 < versionLimit) : next version = version + 1 :=
  Nat.mod_eq_of_lt fits

/-! ## Names as parts of paths -/

/-- A name is no text that does not begin with a digit. -/
theorem name_ne {text : String}
    (unlike : ∀ digit : Digit, text.toList.head? ≠ some digit.char) (version : Nat) :
    name version ≠ text := by
  rintro rfl
  have count := Decimal.length_lastDigits width version
  cases digits : Decimal.lastDigits width version with
  | nil =>
    rw [digits] at count
    exact absurd count (by decide)
  | cons digit rest => exact unlike digit (by rw [toList_name, digits]; rfl)

/-- The characters of a name take one byte, and none of them ends names. -/
theorem plain_of_mem_name {version : Nat} {c : Char} (inside : c ∈ (name version).toList) :
    c.utf8Size = 1 ∧ c ≠ '\x00' := by
  rw [toList_name, List.mem_append, List.mem_map] at inside
  rcases inside with ⟨digit, -, rfl⟩ | last
  · revert digit
    decide
  · have plain : ending.all (fun c => c.utf8Size = 1 && c ≠ '\x00') = true := by decide
    simpa using List.all_eq_true.mp plain c last

/-- What is no text is shown as no name. -/
theorem version?_lossy_eq_none {bytes : Text.Bytes} (notText : Text.Utf8.decode? bytes = none) :
    version? (Text.Utf8.lossy bytes) = none := by
  rw [Option.eq_none_iff_forall_ne_some]
  intro version stands
  have whole : '\uFFFD' ∉ (Text.Utf8.lossy bytes).toList := by
    rw [(name_of_version? stands).1]
    exact fun inside => absurd (plain_of_mem_name inside).1 (by decide)
  simp [Text.Utf8.decode?_of_lossy whole] at notText

/-- All names take the same number of bytes. -/
theorem length_encode_name (version : Nat) :
    (Text.Utf8.encode (name version)).length = width + ending.length := by
  have each : ∀ chars : List Char, (∀ c ∈ chars, c.utf8Size = 1) →
      (chars.flatMap String.utf8EncodeChar).length = chars.length := by
    intro chars plain
    induction chars with
    | nil => rfl
    | cons c rest inductionHypothesis =>
      rw [List.flatMap_cons, List.length_append, String.length_utf8EncodeChar,
        plain c List.mem_cons_self, List.length_cons,
        inductionHypothesis fun c inside => plain c (List.mem_cons_of_mem _ inside)]
      omega
  rw [Text.Utf8.encode, each _ fun c inside => (plain_of_mem_name inside).1, toList_name]
  simp

/-- The paths to the commit files of a directory are all within the limits if one of them is. -/
theorem check_name {directory : FilePath} (first : Nat)
    (fits : FilePath.check (directory ++ [name first]) = .ok ()) (version : Nat) :
    FilePath.check (directory ++ [name version]) = .ok () :=
  FilePath.check_of_shorter fits (fun inside => (plain_of_mem_name inside).2 rfl)
    (by rw [length_encode_name, length_encode_name])

end EventRelay.Commit
