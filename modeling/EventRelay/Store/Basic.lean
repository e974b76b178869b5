import EventRelay.Duration
import EventRelay.FileTree

/-!
# Table stores

A table store keeps a list of records under every path and only ever adds to it. Every operation has
a time limit, and one that cannot keep it is abandoned.
-/

namespace EventRelay

open Text (Bytes)

/-- Why a record is not written. -/
inductive WriteError
  | inputOutput (path cause : String)
  | timeout (path : String) (limit : Duration)
  | conflict (path : String) (attempts : Nat)
  | verification (path : String) (before after : Nat)
  | unavailable (path cause : String)
  deriving DecidableEq, Repr

namespace WriteError

/-- The word for the kind of an error. -/
def kind : WriteError → String
  | .inputOutput .. => "io"
  | .timeout .. => "timeout"
  | .conflict .. => "conflict"
  | .verification .. => "verify"
  | .unavailable .. => "unavailable"

/-- The wording of an error. -/
def message : WriteError → String
  | .inputOutput path cause => "I/O error on " ++ path ++ ": " ++ cause
  | .timeout path limit => "write to " ++ path ++ " timed out after " ++ limit.text
  | .conflict path attempts =>
    "could not claim a new version of " ++ path ++ " after " ++ Decimal.text attempts ++
      " attempts"
  | .verification path before after =>
    "verification of " ++ path ++ " failed: " ++ Decimal.text before ++
      " records before write, " ++ Decimal.text after ++ " after"
  | .unavailable path cause => "table store unavailable for " ++ path ++ ": " ++ cause

end WriteError

/-- How an operation with a time limit ends. -/
inductive Timed (Answer : Type)
  /-- It is finished, and the given time is left. -/
  | finished (left : Duration) (answer : Answer)
  | overdue
  deriving DecidableEq

/-- What an operation leaves behind: how it ended, and the store and the files after it. -/
structure Attempt (Store Answer : Type) where
  outcome : Timed (Except WriteError Answer)
  store : Store
  files : FileTree

namespace Attempt

variable {Store First Second : Type}

/-- Goes on with a second operation, in the time that is left, if the first one succeeds. -/
def andThen (first : Attempt Store First)
    (second : First → Store → FileTree → Duration → Attempt Store Second) :
    Attempt Store Second :=
  match first.outcome with
  | .overdue => ⟨.overdue, first.store, first.files⟩
  | .finished left (.error problem) => ⟨.finished left (.error problem), first.store, first.files⟩
  | .finished left (.ok answer) => second answer first.store first.files left

end Attempt

/-- The operations of a table store; it may keep records in files. -/
class TableStore (Store : Type) where
  /-- The word for the kind of a store. -/
  kind : Store → String
  /-- Adds a record under a path and answers the version that it has become. -/
  append : Store → FileTree → String → Bytes → Duration → Attempt Store Nat
  /-- All records under a path, in the order of their versions. -/
  read : Store → FileTree → String → Duration → Attempt Store (List Bytes)
  /-- The number of records under a path. -/
  count : Store → FileTree → String → Duration → Attempt Store Nat

end EventRelay
