import EventRelay.Message.Memory
import EventRelay.Store.Memory
import EventRelay.Store.Writer
import Mathlib

/-!
# Appending in memory

A store in memory that does not take its time and is not failing puts one record behind those of one
path and leaves every other path alone; one that is failing leaves all paths alone. Verifying an
append changes nothing about what is stored. A producer in memory keeps every message it accepts.
-/

namespace EventRelay

open Text (Bytes)

namespace MemoryStore

/-- Adding a record puts it behind the records of its path. -/
theorem lookup_addRecord (path other : String) (record : Bytes)
    (tables : List (String × List Bytes)) :
    ((addRecord path record tables).lookup other).getD [] =
      (tables.lookup other).getD [] ++ if other = path then [record] else [] := by
  induction tables with
  | nil =>
    by_cases same : other = path
    · simp [addRecord, same]
    · have unlike : (other == path) = false := by simpa using same
      simp [addRecord, List.lookup_cons, unlike, same]
  | cons table rest inductionHypothesis =>
    obtain ⟨held, records⟩ := table
    rw [addRecord]
    split
    · rename_i here
      subst here
      by_cases same : other = path
      · simp [same]
      · have unlike : (other == path) = false := by simpa using same
        simp [List.lookup_cons, unlike, same]
    · rename_i elsewhere
      by_cases same : other = held
      · subst same
        simp [Ne.symm elsewhere]
      · have unlike : (other == held) = false := by simpa using same
        rw [List.lookup_cons, unlike, List.lookup_cons, unlike]
        exact inductionHypothesis

/-- What an append does to a store: one record more under one path, unless the store is failing. -/
structure Grows (store : MemoryStore) (path : String) (record : Bytes) (after : MemoryStore) :
    Prop where
  records : ∀ other, after.records other =
    store.records other ++ if store.failing = false ∧ other = path then [record] else []
  failing : after.failing = store.failing
  delay : after.delay = store.delay

/-- An append that takes no time is never overdue. -/
theorem grows_append {store : MemoryStore} (prompt : store.delay = none) (files : FileTree)
    (path : String) (record : Bytes) (limit : Duration) :
    store.Grows path record (store.append files path record limit).store := by
  have inTime : (store.delay.getD ⟨0⟩).exceeds limit = false := by
    simp [prompt, Duration.exceeds]
  unfold append
  dsimp only
  rw [inTime, if_neg Bool.false_ne_true]
  split
  · rename_i failing
    exact ⟨fun other => by simp [failing, records], rfl, rfl⟩
  · rename_i working
    refine ⟨fun other => ?_, rfl, rfl⟩
    simpa [working, records] using lookup_addRecord path other record store.tables

/-- An append leaves the files alone. -/
theorem files_append (store : MemoryStore) (files : FileTree) (path : String) (record : Bytes)
    (limit : Duration) : (store.append files path record limit).files = files := by
  unfold append
  dsimp only
  split
  · rfl
  · split <;> rfl

end MemoryStore

/-- Going on with an operation that only looks leaves behind what the first one does. -/
theorem Attempt.andThen_keeps {Store First Second : Type} (first : Attempt Store First)
    {second : First → Store → FileTree → Duration → Attempt Store Second}
    (looks : ∀ answer store files limit, (second answer store files limit).store = store ∧
      (second answer store files limit).files = files) :
    (first.andThen second).store = first.store ∧ (first.andThen second).files = first.files := by
  unfold andThen
  split
  · exact ⟨rfl, rfl⟩
  · exact ⟨rfl, rfl⟩
  · exact looks _ _ _ _

namespace TableWriter

/-- Counting before and after an append stores what the append alone stores. -/
theorem appendVerified_keeps (store : MemoryStore) (files : FileTree) (path : String)
    (record : Bytes) (limit : Duration) :
    (appendVerified store files path record limit).store =
        (store.append files path record limit).store ∧
      (appendVerified store files path record limit).files =
        (store.append files path record limit).files := by
  have counted : appendVerified store files path record limit =
      (store.append files path record limit).andThen fun version after files limit =>
        (TableStore.count after files path limit).andThen fun count after files limit =>
          ⟨.finished limit (if count ≤ (store.records path).length then
            .error (.verification path (store.records path).length count)
            else .ok ⟨path, version, record.length, true⟩), after, files⟩ := rfl
  rw [counted]
  exact Attempt.andThen_keeps _ fun _ _ _ _ => ⟨rfl, rfl⟩

/-- An append without verification stores what the append alone stores. -/
theorem appendPlain_keeps (store : MemoryStore) (files : FileTree) (path : String)
    (record : Bytes) (limit : Duration) :
    (appendPlain store files path record limit).store =
        (store.append files path record limit).store ∧
      (appendPlain store files path record limit).files =
        (store.append files path record limit).files :=
  Attempt.andThen_keeps (store.append files path record limit) fun _ _ _ _ => ⟨rfl, rfl⟩

/-- A writer over a store in memory puts one record behind those of the path of its destination,
and leaves its root and the files alone. -/
theorem grows_append {writer : TableWriter MemoryStore} (prompt : writer.store.delay = none)
    (files : FileTree) (destination : Destination) (body : Bytes) :
    writer.store.Grows (writer.pathOf destination) body
        (writer.append files destination body).2.1.store ∧
      (writer.append files destination body).2.1.root = writer.root ∧
      (writer.append files destination body).2.2 = files := by
  unfold append
  extract_lets path limit attempt received
  have stored : attempt.store = (writer.store.append files path body limit).store ∧
      attempt.files = (writer.store.append files path body limit).files := by
    unfold attempt
    split
    · exact appendVerified_keeps writer.store files path body limit
    · exact appendPlain_keeps writer.store files path body limit
  have grows := MemoryStore.grows_append prompt files path body limit
  rw [← stored.1] at grows
  rw [MemoryStore.files_append] at stored
  split
  exact ⟨grows, rfl, stored.2⟩

end TableWriter

namespace MemoryProducer

/-- A producer in memory keeps a message unless it is failing. -/
theorem send_snd (producer : MemoryProducer) (topic key : String) (value : Bytes)
    (limit : Duration) :
    (Producer.send producer topic key value limit).2.sent =
        producer.sent ++ (if producer.failing then [] else [⟨topic, key, value⟩]) ∧
      (Producer.send producer topic key value limit).2.failing = producer.failing := by
  change (producer.send topic key value).2.sent = _ ∧ (producer.send topic key value).2.failing = _
  unfold send
  dsimp only
  split <;> simp_all

variable {producer : MemoryProducer}

/-- A producer that is failing rejects a message, and counts that. -/
theorem sendThrough_of_failing (failing : producer.failing = true) (topic key : String)
    (value : Bytes) (limit : Duration) :
    Producer.sendThrough (some producer) topic key value limit =
      (.error (.rejected topic rejection),
        some { producer with counters := producer.counters.receive.fail }) := by
  change ((producer.send topic key value).1, some (producer.send topic key value).2) = _
  rw [send, if_pos failing]

/-- A producer that is not failing keeps a message, and counts that. -/
theorem sendThrough_of_working (working : producer.failing = false) (topic key : String)
    (value : Bytes) (limit : Duration) :
    Producer.sendThrough (some producer) topic key value limit =
      (.ok (),
        some { producer with
          sent := producer.sent ++ [⟨topic, key, value⟩]
          counters := producer.counters.receive.succeed value.length }) := by
  change ((producer.send topic key value).1, some (producer.send topic key value).2) = _
  rw [send, if_neg (Bool.not_eq_true _ ▸ working)]

end MemoryProducer

end EventRelay
