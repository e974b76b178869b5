import EventRelay.Store.Basic

/-!
# Tables in memory

The store can be told to fail, or to take its time over every append.
-/

namespace EventRelay

open Text (Bytes)

/-- Tables in memory. -/
structure MemoryStore where
  /-- The records of every path that has any, in the order of their versions. -/
  tables : List (String × List Bytes)
  /-- How many appends have been asked for. -/
  appends : Nat
  failing : Bool
  /-- How long an append takes, if it takes time. -/
  delay : Option Duration
  deriving DecidableEq

namespace MemoryStore

/-- A store without records. -/
def empty : MemoryStore :=
  ⟨[], 0, false, none⟩

/-- The records under a path. -/
def records (store : MemoryStore) (path : String) : List Bytes :=
  (store.tables.lookup path).getD []

/-- Adds a record to a list of tables. -/
def addRecord (path : String) (record : Bytes) :
    List (String × List Bytes) → List (String × List Bytes)
  | [] => [(path, [record])]
  | (other, held) :: rest =>
    if path = other then (other, held ++ [record]) :: rest
    else (other, held) :: addRecord path record rest

/-- The paths that have records, in increasing order. -/
def paths (store : MemoryStore) : List String :=
  (store.tables.map Prod.fst).mergeSort fun a b => decide (a ≤ b)

/-- Adds a record once the delay is over. -/
def append (store : MemoryStore) (files : FileTree) (path : String) (payload : Bytes)
    (limit : Duration) : Attempt MemoryStore Nat :=
  let asked := { store with appends := store.appends + 1 }
  let delay := store.delay.getD ⟨0⟩
  let left := limit.minus delay
  if delay.exceeds limit then ⟨.overdue, asked, files⟩
  else if store.failing then
    ⟨.finished left (.error (.unavailable path "injected failure")), asked, files⟩
  else
    let stored := { asked with tables := addRecord path payload store.tables }
    ⟨.finished left (.ok (stored.records path).length), stored, files⟩

instance : TableStore MemoryStore where
  kind _ := "memory"
  append := append
  read store files path limit := ⟨.finished limit (.ok (store.records path)), store, files⟩
  count store files path limit :=
    ⟨.finished limit (.ok (store.records path).length), store, files⟩

end MemoryStore

end EventRelay
