import EventRelay.Counters
import EventRelay.Store.Basic
import EventRelay.Store.Destination
import EventRelay.Text.Blank
import EventRelay.Text.Quoted

/-!
# Writing records to tables

A writer puts records into a store under a root prefix and within a time limit. With verification it
counts the records of the table before and after: the count has to grow. Time is measured in
milliseconds, so a limit between two of them ends at the later one.
-/

namespace EventRelay

open Text (Bytes)

/-- The receipt of a record that has been written. -/
structure Receipt where
  path : String
  version : Nat
  bytes : Nat
  verified : Bool
  deriving DecidableEq, Repr

/-- A writer over a store. -/
structure TableWriter (Store : Type) where
  store : Store
  /-- The prefix of all paths. -/
  root : Option String
  timeout : Duration
  verify : Bool
  counters : SinkCounters

namespace TableWriter

variable {Store : Type}

/-- The time limit of a writer unless told otherwise. -/
def defaultTimeout : Duration :=
  .ofSeconds 10

/-- A writer without root prefix and verification. -/
def ofStore (store : Store) : TableWriter Store :=
  ⟨store, none, defaultTimeout, false, {}⟩

/-- A root prefix without the slashes at its ends; nothing when that leaves nothing. -/
def trimRoot (root : String) : Option String :=
  let trimmed := Text.trimBy (· = '/') root
  if trimmed.isEmpty then none else some trimmed

/-- The writer with a root prefix. -/
def withRoot (writer : TableWriter Store) (root : Option String) : TableWriter Store :=
  { writer with root := root.bind trimRoot }

/-- The path of a destination. -/
def pathOf (writer : TableWriter Store) (destination : Destination) : String :=
  destination.path writer.root

variable [TableStore Store]

/-- Adds a record under a path, with verification. -/
def appendVerified (store : Store) (files : FileTree) (path : String) (payload : Bytes)
    (limit : Duration) : Attempt Store Receipt :=
  (TableStore.count store files path limit).andThen fun before store files limit =>
    (TableStore.append store files path payload limit).andThen fun version store files limit =>
      (TableStore.count store files path limit).andThen fun after store files limit =>
        let answer :=
          if after ≤ before then .error (.verification path before after)
          else .ok ⟨path, version, payload.length, true⟩
        ⟨.finished limit answer, store, files⟩

/-- Adds a record under a path, without verification. -/
def appendPlain (store : Store) (files : FileTree) (path : String) (payload : Bytes)
    (limit : Duration) : Attempt Store Receipt :=
  (TableStore.append store files path payload limit).andThen fun version store files limit =>
    ⟨.finished limit (.ok ⟨path, version, payload.length, false⟩), store, files⟩

/-- Adds a record to the table of a destination and counts what becomes of it. -/
def append (writer : TableWriter Store) (files : FileTree) (destination : Destination)
    (payload : Bytes) : Except WriteError Receipt × TableWriter Store × FileTree :=
  let path := writer.pathOf destination
  let limit := writer.timeout.inMilliseconds
  let attempt :=
    if writer.verify then appendVerified writer.store files path payload limit
    else appendPlain writer.store files path payload limit
  let received := writer.counters.receive
  let (answer, counters) :=
    match attempt.outcome with
    | .overdue => (.error (.timeout path writer.timeout), received.expire)
    | .finished _ (.error problem) => (.error problem, received.fail)
    | .finished _ (.ok receipt) => (.ok receipt, received.succeed receipt.bytes)
  (answer, { writer with store := attempt.store, counters }, attempt.files)

/-- The diagnostic text of a writer. -/
def describe (writer : TableWriter Store) : String :=
  "TableWriter \x7b store: " ++ Text.quote (TableStore.kind writer.store) ++ ", root_prefix: " ++
    Text.quoteOption writer.root ++ ", write_timeout: " ++ writer.timeout.text ++ ", verify: " ++
    (if writer.verify then "true" else "false") ++ " \x7d"

end TableWriter

end EventRelay
