import EventRelay.Store.Writer
import Mathlib

/-!
# What a writer makes of an operation

An append asks the store for one operation within the time limit, and how that operation ends
decides what is answered and what is counted. The operation goes through steps, the first of which
that fails or is overdue ends it.
-/

namespace EventRelay

open Text (Bytes)

/-- Whether an operation is overdue. -/
def Timed.isOverdue {Answer : Type} : Timed Answer → Bool
  | .overdue => true
  | .finished _ _ => false

namespace Attempt

variable {Store First Second : Type}

/-- An operation of two steps is finished where the first one fails, or where both are. -/
theorem andThen_eq_finished_iff {first : Attempt Store First}
    {second : First → Store → FileTree → Duration → Attempt Store Second} {left : Duration}
    {answer : Except WriteError Second} :
    (first.andThen second).outcome = .finished left answer ↔
      (∃ problem, first.outcome = .finished left (.error problem) ∧ answer = .error problem) ∨
        ∃ between found, first.outcome = .finished between (.ok found) ∧
          (second found first.store first.files between).outcome = .finished left answer := by
  rw [andThen]
  rcases first.outcome with ⟨between, problem | found⟩ | -
  · simp [eq_comm]
  · simp
  · simp

end Attempt

namespace TableWriter

variable {Store : Type} [TableStore Store]

/-- The operation that an append asks of the store. -/
def attempt (writer : TableWriter Store) (files : FileTree) (destination : Destination)
    (payload : Bytes) : Attempt Store Receipt :=
  if writer.verify then
    appendVerified writer.store files (writer.pathOf destination) payload
      writer.timeout.inMilliseconds
  else
    appendPlain writer.store files (writer.pathOf destination) payload
      writer.timeout.inMilliseconds

variable {writer : TableWriter Store} {files : FileTree} {destination : Destination}
  {payload : Bytes} {left : Duration}

/-- An operation that is overdue has missed the deadline of the writer. -/
theorem append_of_overdue (late : (writer.attempt files destination payload).outcome = .overdue) :
    writer.append files destination payload =
      (.error (.timeout (writer.pathOf destination) writer.timeout),
        { writer with
          store := (writer.attempt files destination payload).store
          counters := writer.counters.receive.expire },
        (writer.attempt files destination payload).files) := by
  rw [attempt] at late ⊢
  simp only [append, late]

/-- An operation that fails in time is a failure of the writer. -/
theorem append_of_error {problem : WriteError}
    (failed : (writer.attempt files destination payload).outcome =
      .finished left (.error problem)) :
    writer.append files destination payload =
      (.error problem,
        { writer with
          store := (writer.attempt files destination payload).store
          counters := writer.counters.receive.fail },
        (writer.attempt files destination payload).files) := by
  rw [attempt] at failed ⊢
  simp only [append, failed]

/-- An operation that succeeds in time is answered with its receipt. -/
theorem append_of_ok {receipt : Receipt}
    (written : (writer.attempt files destination payload).outcome =
      .finished left (.ok receipt)) :
    writer.append files destination payload =
      (.ok receipt,
        { writer with
          store := (writer.attempt files destination payload).store
          counters := writer.counters.receive.succeed receipt.bytes },
        (writer.attempt files destination payload).files) := by
  rw [attempt] at written ⊢
  simp only [append, written]

/-- An error that is no missed deadline is that of the operation. -/
theorem append_eq_error_iff {problem : WriteError}
    (intime : ∀ path limit, problem ≠ .timeout path limit) :
    (writer.append files destination payload).1 = .error problem ↔
      ∃ left, (writer.attempt files destination payload).outcome =
        .finished left (.error problem) := by
  cases ends : (writer.attempt files destination payload).outcome with
  | overdue =>
    rw [append_of_overdue ends]
    simp [(intime _ _).symm]
  | finished left answer =>
    cases answer with
    | error other =>
      rw [append_of_error ends]
      simp
    | ok receipt =>
      rw [append_of_ok ends]
      simp

/-- A plain append is finished where the append of the store is. -/
theorem appendPlain_eq_finished_iff {store : Store} {path : String} {limit : Duration}
    {answer : Except WriteError Receipt} :
    (appendPlain store files path payload limit).outcome = .finished left answer ↔
      ∃ ended, (TableStore.append store files path payload limit).outcome = .finished left ended ∧
        answer = ended.map fun version => ⟨path, version, payload.length, false⟩ := by
  rw [appendPlain, Attempt.andThen_eq_finished_iff]
  constructor
  · rintro (⟨problem, failed, rfl⟩ | ⟨between, version, appended, same⟩)
    · exact ⟨_, failed, rfl⟩
    · obtain ⟨rfl, rfl⟩ := Timed.finished.inj same
      exact ⟨_, appended, rfl⟩
  · rintro ⟨problem | version, ended, rfl⟩
    · exact .inl ⟨problem, ended, rfl⟩
    · exact .inr ⟨left, version, ended, rfl⟩

/-- The steps of a verified append, each in the time that the one before it leaves: the records are
counted, one more is appended, and they are counted again. -/
def Recounts (store : Store) (files : FileTree) (path : String) (payload : Bytes)
    (limit left : Duration) (before version after : Nat) : Prop :=
  let counted := TableStore.count store files path limit
  ∃ first, counted.outcome = .finished first (.ok before) ∧
    let appended := TableStore.append counted.store counted.files path payload first
    ∃ second, appended.outcome = .finished second (.ok version) ∧
      (TableStore.count appended.store appended.files path second).outcome =
        .finished left (.ok after)

/-- A verified append is finished where one of its steps fails, or where all of them succeed; it
then depends on whether the number of records has grown. -/
theorem appendVerified_eq_finished {store : Store} {path : String} {limit : Duration}
    {answer : Except WriteError Receipt}
    (ends : (appendVerified store files path payload limit).outcome = .finished left answer) :
    (∃ problem store files path limit, answer = .error problem ∧
        ((@TableStore.count Store _ store files path limit).outcome =
            .finished left (.error problem) ∨
          (@TableStore.append Store _ store files path payload limit).outcome =
            .finished left (.error problem))) ∨
      ∃ before version after, Recounts store files path payload limit left before version after ∧
        answer =
          if after ≤ before then .error (.verification path before after)
          else .ok ⟨path, version, payload.length, true⟩ := by
  simp only [appendVerified, Attempt.andThen_eq_finished_iff] at ends
  obtain ⟨problem, failed, rfl⟩ | ⟨first, before, counted, ⟨problem, failed, rfl⟩ |
    ⟨second, version, appended, ⟨problem, failed, rfl⟩ | ⟨third, after, recounted, same⟩⟩⟩ := ends
  · exact .inl ⟨problem, _, _, _, _, rfl, .inl failed⟩
  · exact .inl ⟨problem, _, _, _, _, rfl, .inr failed⟩
  · exact .inl ⟨problem, _, _, _, _, rfl, .inl failed⟩
  · obtain ⟨rfl, rfl⟩ := Timed.finished.inj same
    exact .inr ⟨before, version, after, ⟨first, counted, second, appended, recounted⟩, rfl⟩

/-- The receipt of an operation says how large the record is. -/
theorem bytes_of_attempt {receipt : Receipt}
    (written : (writer.attempt files destination payload).outcome =
      .finished left (.ok receipt)) : receipt.bytes = payload.length := by
  rw [attempt] at written
  split at written
  · obtain ⟨problem, -, -, -, -, same, -⟩ | ⟨before, version, after, -, same⟩ :=
      appendVerified_eq_finished written
    · cases same
    · split at same
      · cases same
      · rw [Except.ok.inj same]
  · obtain ⟨ended, -, same⟩ := appendPlain_eq_finished_iff.mp written
    cases ended with
    | error problem => cases same
    | ok version => rw [Except.ok.inj same]

end TableWriter

end EventRelay
