import EventRelay.Decimal.Digits

/-!
# Names of commit files

The commit file of a version is named by the version's twenty decimal digits, so that the order of
names is the order of versions.
-/

namespace EventRelay.Commit

open Decimal (Digit)

/-- How many digits a version has. -/
def width : Nat :=
  20

/-- The first number that is too large for a version, which 64 bits hold. -/
def versionLimit : Nat :=
  18446744073709551616

/-- The ending of a commit file name. -/
def ending : List Char :=
  ['.', 'j', 's', 'o', 'n']

/-- The file name of a version. -/
def name (version : Nat) : String :=
  String.ofList ((Decimal.lastDigits width version).map Digit.char ++ ending)

/-- The version that a file name stands for, if it is the name of a commit file. -/
def version? (name : String) : Option Nat :=
  let chars := name.toList
  if chars.drop width = ending then
    match Decimal.digits? (chars.take width) with
    | none => none
    | some digits =>
      if Decimal.value digits < versionLimit then some (Decimal.value digits) else none
  else none

/-- The version after another one; after the largest one the count begins anew. -/
def next (version : Nat) : Nat :=
  (version + 1) % versionLimit

end EventRelay.Commit
