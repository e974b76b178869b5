import EventRelay.Store.Disk
import EventRelay.Store.Memory

/-!
# The store that settings choose
-/

namespace EventRelay

/-- A store of either kind. -/
inductive ConfiguredStore
  | disk (store : DiskStore)
  | memory (store : MemoryStore)

namespace ConfiguredStore

/-- An operation of one kind of store as one of either kind. -/
def lift {Store Answer : Type} (wrap : Store → ConfiguredStore) (attempt : Attempt Store Answer) :
    Attempt ConfiguredStore Answer :=
  ⟨attempt.outcome, wrap attempt.store, attempt.files⟩

instance : TableStore ConfiguredStore where
  kind
    | .disk store => TableStore.kind store
    | .memory store => TableStore.kind store
  append
    | .disk store => fun files path payload limit =>
      lift .disk (TableStore.append store files path payload limit)
    | .memory store => fun files path payload limit =>
      lift .memory (TableStore.append store files path payload limit)
  read
    | .disk store => fun files path limit => lift .disk (TableStore.read store files path limit)
    | .memory store => fun files path limit => lift .memory (TableStore.read store files path limit)
  count
    | .disk store => fun files path limit => lift .disk (TableStore.count store files path limit)
    | .memory store => fun files path limit =>
      lift .memory (TableStore.count store files path limit)

end ConfiguredStore

end EventRelay
