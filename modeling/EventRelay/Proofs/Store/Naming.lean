import EventRelay.Proofs.Listing
import EventRelay.Proofs.Store.Disk
import EventRelay.Proofs.Text.Order
import Mathlib

/-!
# Names of commit files are in the order of their versions

The name of a version is its decimal text behind as many zeros as it takes to fill up the width, so
the first digit in which two names differ decides both their order and that of their versions. What
is read as a version is the name of that version and nothing else is. The versions of a directory
are therefore its commit files, in the order of their names.
-/

namespace EventRelay

namespace Commit

open Decimal (Digit)

/-- The characters of a name are the decimal text of the version behind zeros, and the ending. -/
theorem toList_name_eq_leftpad {version : Nat} (fits : version < versionLimit) :
    (name version).toList = (Nat.toDigits 10 version).leftpad width '0' ++ ending := by
  rw [toList_name, Decimal.lastDigits_eq_leftpad (by decide) (lt_pow_width fits), List.leftpad,
    List.leftpad, List.map_append, List.map_replicate, ← Decimal.map_char_digits, List.length_map]
  rfl

/-- Names are in the order of their versions. -/
theorem name_lt_name {version later : Nat} (less : version < later) (fits : later < versionLimit) :
    name version < name later := by
  rw [String.lt_iff_toList_lt, toList_name, toList_name]
  apply Decimal.map_char_append_lt
  · rw [Decimal.length_lastDigits, Decimal.length_lastDigits]
  · rwa [Decimal.value_lastDigits (lt_pow_width (less.trans fits)),
      Decimal.value_lastDigits (lt_pow_width fits)]

theorem name_le_name {version later : Nat} (atMost : version ≤ later)
    (fits : later < versionLimit) : name version ≤ name later := by
  rcases atMost.lt_or_eq with less | rfl
  · exact (name_lt_name less fits).le
  · exact le_refl _

/-! ## What is no name -/

/-- A text stands for no version if it differs from the names of all versions. -/
theorem version?_eq_none {text : String}
    (unlike : ∀ version < versionLimit, name version ≠ text) : version? text = none := by
  rw [Option.eq_none_iff_forall_ne_some]
  intro version stands
  obtain ⟨same, fits⟩ := name_of_version? stands
  exact unlike version fits same.symm

/-- Digits with the ending stand for a version exactly where they are as many as the width and
their value is below the limit. -/
theorem version?_digits (digits : List Digit) :
    version? (String.ofList (digits.map Digit.char ++ ending)) =
      if digits.length = width ∧ Decimal.value digits < versionLimit then
        some (Decimal.value digits)
      else none := by
  split
  · rename_i good
    obtain ⟨count, fits⟩ := good
    have named : String.ofList (digits.map Digit.char ++ ending) = name (Decimal.value digits) := by
      rw [name, ← count, Decimal.lastDigits_value]
    rw [named, version?_name fits]
  · rename_i bad
    apply version?_eq_none
    intro version fits same
    have chars := congrArg String.toList same
    rw [toList_name, String.toList_ofList] at chars
    have spelled := Decimal.map_char_injective (List.append_cancel_right chars)
    refine bad ⟨?_, ?_⟩
    · rw [← spelled, Decimal.length_lastDigits]
    · rwa [← spelled, Decimal.value_lastDigits (lt_pow_width fits)]

/-! ## Commit files among other names -/

/-- Whether a text is the name of a commit file. -/
def isName (text : String) : Bool :=
  (version? text).isSome

/-- The names of the versions that are found are the names of commit files that were there. -/
theorem map_name_filterMap (names : List String) :
    (names.filterMap version?).map name = names.filter isName := by
  rw [List.map_filterMap, ← List.filterMap_eq_filter]
  refine List.filterMap_congr fun text _ => ?_
  cases stands : version? text with
  | none => simp [Option.guard, isName, stands]
  | some version => simp [Option.guard, isName, stands, (name_of_version? stands).1.symm]

/-- Sorting versions sorts their names. -/
theorem map_name_mergeSort (names : List String) :
    (names.filterMap version?).mergeSort.map name = (names.filter isName).mergeSort := by
  have versionsOrdered := List.pairwise_mergeSort' (· ≤ ·) (names.filterMap version?)
  have named : ((names.filterMap version?).mergeSort.map name).Pairwise (· ≤ ·) := by
    rw [List.pairwise_map]
    refine versionsOrdered.imp_of_mem fun _ last atMost => name_le_name atMost ?_
    obtain ⟨text, -, stands⟩ := List.mem_filterMap.mp (List.mem_mergeSort.mp last)
    exact (name_of_version? stands).2
  have found := (List.mergeSort_perm (names.filterMap version?) fun a b => a ≤ b).map name
  rw [map_name_filterMap] at found
  -- Lists in order are equal when they have the same members equally often.
  exact (found.trans (List.mergeSort_perm _ _).symm).eq_of_pairwise
    (fun _ _ _ _ => le_antisymm) named (List.pairwise_mergeSort' (· ≤ ·) _)

/-- The versions of a directory are its commit files in the order of their names. -/
theorem map_name_versionsIn {files : FileTree} {directory : FilePath} {listed : List FileEntry}
    (shows : files.list directory = .ok listed) :
    (DiskStore.versionsIn files directory).map (List.map name) =
      .ok ((listed.map fun entry => Text.Utf8.lossy entry.name).filter isName).mergeSort := by
  rw [DiskStore.versionsIn, shows, ← map_name_mergeSort, List.filterMap_map]
  rfl

/-- Every version that 64 bits hold has a name: its decimal text behind zeros, twenty digits in all,
and the ending. It is read back from its name and from no other text, and the names are in the order
of the versions, byte by byte. A number of twenty digits that is too large, a text of another
length, a text with another ending, the name of a staging file and a name that is no text stand for
no version. So the versions of a directory are its commit files in the order of their names. -/
theorem names_stand_for_versions :
    (∀ version < versionLimit,
      (name version).toList = (Nat.toDigits 10 version).leftpad width '0' ++ ending ∧
        version? (name version) = some version) ∧
    (∀ text version, version? text = some version →
      text = name version ∧ version < versionLimit) ∧
    (∀ text other version, version? text = some version → version? other = some version →
      text = other) ∧
    (∀ version later, version < later → later < versionLimit →
      Text.Utf8.encode (name version) < Text.Utf8.encode (name later)) ∧
    (∀ digits : List Digit, digits.length = width → versionLimit ≤ Decimal.value digits →
      version? (String.ofList (digits.map Digit.char ++ ending)) = none) ∧
    (∀ text, (Text.Utf8.encode text).length ≠ width + ending.length → version? text = none) ∧
    (∀ text : String, ¬ ending <:+ text.toList → version? text = none) ∧
    (∀ store : DiskStore, version? store.stagingName = none) ∧
    (∀ bytes, Text.Utf8.decode? bytes = none → version? (Text.Utf8.lossy bytes) = none) ∧
    ∀ files directory listed, FileTree.list files directory = .ok listed →
      (DiskStore.versionsIn files directory).map (List.map name) =
        .ok ((listed.map fun entry => Text.Utf8.lossy entry.name).filter isName).mergeSort := by
  refine ⟨fun version fits => ⟨toList_name_eq_leftpad fits, version?_name fits⟩,
    fun text version => name_of_version?, ?unique, ?ordered, ?tooLarge, ?otherLength, ?otherEnding,
    ?staging, fun bytes => version?_lossy_eq_none,
    fun files directory listed => map_name_versionsIn⟩
  case unique =>
    intro text other version first second
    rw [(name_of_version? first).1, (name_of_version? second).1]
  case ordered =>
    intro version later less fits
    exact Text.Utf8.encode_lt_iff.mpr (name_lt_name less fits)
  case tooLarge =>
    intro digits count large
    rw [version?_digits, if_neg]
    omega
  case otherLength =>
    intro text length
    apply version?_eq_none
    rintro version - rfl
    exact length (length_encode_name version)
  case otherEnding =>
    intro text ends
    apply version?_eq_none
    rintro version - rfl
    exact ends (toList_name version ▸ List.suffix_append _ _)
  case staging =>
    intro store
    apply version?_eq_none
    intro version _
    exact DiskStore.name_ne_stagingName version

/-- A table with two versions beside names that are nearly those of commit files: a number just
above the largest version, one digit too few, two other endings and a staging file. -/
def crowdedTable : FileTree :=
  ["18446744073709551616.json", "0000000000000000007.json", "00000000000000000007.txt",
    "00000000000000000007.json.bak", ".staging-1-0"].foldl
    (fun files text => files.add (DiskStore.sparsePlace ++ [text]) (.file (.ok [])))
    DiskStore.sparseTable

/-- The largest version has a name, and the number behind it would have one as well. Beside such
names the two versions of a table are found as before. -/
theorem names_stand_for_versions_crowdedTable :
    (18446744073709551615 < versionLimit ∧
      version? "18446744073709551615.json" = some 18446744073709551615) ∧
    (version? "00000000000000000007.json" = some 7 ∧ "00000000000000000007.json" = name 7) ∧
    Text.Utf8.encode "00000000000000000009.json" < Text.Utf8.encode "00000000000000000010.json" ∧
    (versionLimit ≤ 18446744073709551616 ∧ version? "18446744073709551616.json" = none) ∧
    version? "7.json" = none ∧
    version? "00000000000000000007.txt" = none ∧
    (DiskStore.versionsIn crowdedTable ((DiskStore.ofBase ["data"]).commitsOf "orders")).map
        (List.map name) =
      .ok ["00000000000000000002.json", "00000000000000000005.json"] := by
  obtain ⟨named, read, -, ordered, tooLarge, otherLength, otherEnding, -, -, listed⟩ :=
    names_stand_for_versions
  have seven : version? "00000000000000000007.json" = some 7 := by decide
  have commits : ((crowdedTable.contents DiskStore.sparsePlace).map fun entry =>
      Text.Utf8.lossy entry.name).filter isName =
        ["00000000000000000005.json", "00000000000000000002.json"] := by decide +kernel
  have sorted : ["00000000000000000005.json", "00000000000000000002.json"].mergeSort =
      ["00000000000000000002.json", "00000000000000000005.json"] := by simp [List.mergeSort]
  have found := listed crowdedTable ((DiskStore.ofBase ["data"]).commitsOf "orders") _
    (FileTree.list_eq_ok.mpr ⟨DiskStore.sparsePlace, by decide, rfl⟩)
  rw [commits, sorted] at found
  exact ⟨⟨by decide, (named 18446744073709551615 (by decide)).2⟩, ⟨seven, (read _ 7 seven).1⟩,
    ordered 9 10 (by decide) (by decide),
    ⟨by decide, tooLarge [1, 8, 4, 4, 6, 7, 4, 4, 0, 7, 3, 7, 0, 9, 5, 5, 1, 6, 1, 6]
      (by decide) (by decide)⟩,
    otherLength "7.json" (by decide), otherEnding "00000000000000000007.txt" (by decide), found⟩

end Commit

end EventRelay
