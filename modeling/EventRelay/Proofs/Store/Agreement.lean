import EventRelay.Proofs.Store.Memory
import EventRelay.Proofs.Store.Mirror
import Mathlib

/-!
# Tables on disk agree with tables in memory

A store answers a list of requests one after the other. What the answers should be is said by a
list of records for each normal form of a path: those that have been appended under paths of this
normal form so far. Both kinds of store give these answers, the one on disk to the requests as they
are and the one in memory once every path is in its normal form.
-/

namespace EventRelay

open Text (Bytes)

/-! ## Requests and answers -/

/-- A request to a table store. -/
inductive TableRequest
  | append (path : String) (payload : Bytes)
  | read (path : String)
  | count (path : String)
  deriving DecidableEq

/-- An answer to a request: the version of a new record, all records, or the number of records. -/
inductive TableAnswer
  | version (number : Nat)
  | records (held : List Bytes)
  | number (count : Nat)
  deriving DecidableEq

namespace TableRequest

/-- The path that a request is about. -/
def path : TableRequest → String
  | .append path _ | .read path | .count path => path

/-- The request with the normal form of its path. -/
def normal : TableRequest → TableRequest
  | .append path payload => .append (DiskStore.normalPath path) payload
  | .read path => .read (DiskStore.normalPath path)
  | .count path => .count (DiskStore.normalPath path)

/-- The answer to a request when so many records are held under its path. -/
def answer (held : List Bytes) : TableRequest → TableAnswer
  | .append .. => .version (held.length + 1)
  | .read _ => .records held
  | .count _ => .number held.length

/-- The records that have been appended under paths of one normal form. -/
def recorded (requests : List TableRequest) (normal : String) : List Bytes :=
  requests.filterMap fun
    | .append path payload => if DiskStore.normalPath path = normal then some payload else none
    | _ => none

/-- The answers to requests that follow earlier ones. -/
def answersAfter (earlier : List TableRequest) : List TableRequest → List TableAnswer
  | [] => []
  | request :: later =>
    request.answer (recorded earlier (DiskStore.normalPath request.path)) ::
      answersAfter (earlier ++ [request]) later

end TableRequest

/-- An operation whose answer is given in another form. -/
def Attempt.map {Store First Second : Type} (convert : First → Second)
    (attempt : Attempt Store First) : Attempt Store Second :=
  attempt.andThen fun answer store files left =>
    ⟨.finished left (.ok (convert answer)), store, files⟩

/-- An operation that is finished stays so when its answer is given in another form. -/
theorem Attempt.map_finished {Store First Second : Type} (convert : First → Second)
    (left : Duration) (answer : Except WriteError First) (store : Store) (files : FileTree) :
    Attempt.map convert ⟨.finished left answer, store, files⟩ =
      ⟨.finished left (answer.map convert), store, files⟩ := by
  cases answer <;> rfl

/-- No error of the operating system has been met. -/
def Timed.Undisturbed {Answer : Type} (outcome : Timed (Except WriteError Answer)) : Prop :=
  ∀ left path cause, outcome ≠ .finished left (.error (.inputOutput path cause))

/-- An answer that meets no error of the operating system in one form is none in the other. -/
theorem Timed.Undisturbed.ne_error {First Second : Type} {convert : First → Second}
    {left : Duration} {answer : Except WriteError First}
    (calm : (Timed.finished left (answer.map convert)).Undisturbed) (path cause : String) :
    answer ≠ .error (.inputOutput path cause) := by
  rintro rfl
  exact calm left path cause rfl

namespace TableStore

variable {Store : Type} [TableStore Store]

/-- The operation that a request asks for. -/
def perform (store : Store) (files : FileTree) (limit : Duration) :
    TableRequest → Attempt Store TableAnswer
  | .append path payload => (append store files path payload limit).map .version
  | .read path => (read store files path limit).map .records
  | .count path => (count store files path limit).map .number

/-- The answers to requests, one after the other and each with the same time limit. -/
def answers (limit : Duration) :
    Store → FileTree → List TableRequest → List (Timed (Except WriteError TableAnswer))
  | _, _, [] => []
  | store, files, request :: later =>
    let attempt := perform store files limit request
    attempt.outcome :: answers limit attempt.store attempt.files later

end TableStore

namespace TableRequest

/-- One request more adds its record, if it has one. -/
theorem recorded_concat (earlier : List TableRequest) (request : TableRequest) :
    recorded (earlier ++ [request]) =
      match request with
      | .append path payload => DiskStore.record path payload (recorded earlier)
      | _ => recorded earlier := by
  funext normal
  rw [recorded, List.filterMap_append]
  cases request with
  | append path payload =>
    by_cases same : DiskStore.normalPath path = normal
    · simp [DiskStore.record, recorded, same]
    · simp [DiskStore.record, recorded, same]
  | read path => simp [recorded]
  | count path => simp [recorded]

/-- Later requests only add records. -/
theorem length_recorded_le (earlier later : List TableRequest) (normal : String) :
    (recorded earlier normal).length ≤ (recorded (earlier ++ later) normal).length := by
  rw [recorded, recorded, List.filterMap_append, List.length_append]
  exact Nat.le_add_right _ _

/-- The answer to a request is determined by the records at that time. -/
theorem getElem?_answersAfter (earlier front : List TableRequest) (request : TableRequest)
    (later : List TableRequest) :
    (answersAfter earlier (front ++ request :: later))[front.length]? =
      some (request.answer (recorded (earlier ++ front) (DiskStore.normalPath request.path))) := by
  induction front generalizing earlier with
  | nil => simp [answersAfter]
  | cons first others inductionHypothesis =>
    have found := inductionHypothesis (earlier ++ [first])
    simpa [answersAfter] using found

end TableRequest

open TableRequest

/-! ## In memory -/

namespace MemoryStore

variable {store : MemoryStore} {earlier : List TableRequest} {limit : Duration}

/-- The lists of records are what a store in memory holds. -/
structure Holds (store : MemoryStore) (earlier : List TableRequest) : Prop where
  prompt : store.delay = none
  working : store.failing = false
  records : ∀ normal, store.records normal = recorded earlier normal

/-- A store that does not take its time and is not failing answers the number of records. -/
theorem append_eq (prompt : store.delay = none) (working : store.failing = false)
    (files : FileTree) (path : String) (payload : Bytes) (limit : Duration) :
    ∃ after, store.append files path payload limit =
        ⟨.finished limit (.ok ((store.records path).length + 1)), after, files⟩ ∧
      store.Grows path payload after := by
  have grows := grows_append prompt files path payload limit
  have inTime : (store.delay.getD ⟨0⟩).exceeds limit = false := by
    simp [prompt, Duration.exceeds]
  unfold append at grows ⊢
  dsimp only at grows ⊢
  rw [inTime, if_neg Bool.false_ne_true, working, if_neg Bool.false_ne_true] at grows ⊢
  refine ⟨_, ?_, grows⟩
  have number := congrArg List.length (grows.records path)
  simp only [working, if_pos, and_self, List.length_append, List.length_singleton] at number
  rw [← number, prompt]
  rfl

/-- A store in memory answers a request in its normal form as the lists say. -/
theorem Holds.perform (holds : store.Holds earlier) (files : FileTree) (limit : Duration)
    (request : TableRequest) :
    ∃ after, TableStore.perform store files limit request.normal =
        ⟨.finished limit
          (.ok (request.answer (recorded earlier (DiskStore.normalPath request.path)))),
          after, files⟩ ∧
      after.Holds (earlier ++ [request]) := by
  cases request with
  | append path payload =>
    obtain ⟨after, appended, grows⟩ := append_eq holds.prompt holds.working files
      (DiskStore.normalPath path) payload limit
    have performed :
        TableStore.perform store files limit (.append (DiskStore.normalPath path) payload) =
          (store.append files (DiskStore.normalPath path) payload limit).map .version := rfl
    refine ⟨after, ?_, grows.delay.trans holds.prompt, grows.failing.trans holds.working, ?_⟩
    · rw [TableRequest.normal, performed, appended, holds.records]
      rfl
    · intro normal
      rw [grows.records, holds.records, recorded_concat]
      simp [DiskStore.record, holds.working, eq_comm]
  | read path =>
    refine ⟨store, ?_, holds.prompt, holds.working, ?_⟩
    · rw [TableRequest.answer, TableRequest.path, ← holds.records]
      rfl
    · rw [recorded_concat]
      exact holds.records
  | count path =>
    refine ⟨store, ?_, holds.prompt, holds.working, ?_⟩
    · rw [TableRequest.answer, TableRequest.path, ← holds.records]
      rfl
    · rw [recorded_concat]
      exact holds.records

/-- A store in memory answers requests in their normal form as the lists say. -/
theorem answers_eq (holds : store.Holds earlier) (files : FileTree) (later : List TableRequest) :
    TableStore.answers limit store files (later.map normal) =
      (answersAfter earlier later).map fun answer => .finished limit (.ok answer) := by
  induction later generalizing store files earlier with
  | nil => rfl
  | cons request later inductionHypothesis =>
    obtain ⟨after, performed, still⟩ := holds.perform files limit request
    rw [List.map_cons, TableStore.answers, answersAfter, List.map_cons, performed,
      inductionHypothesis still]

end MemoryStore

/-! ## On disk -/

namespace DiskStore

variable {store : DiskStore} {files : FileTree} {root : Place} {earlier : List TableRequest}
  {limit : Duration}

/-- What lets a request meet no error of the operating system. -/
def Serves (store : DiskStore) (files : FileTree) (held : String → List Bytes) :
    TableRequest → Prop
  | .append path _ => store.Unhindered files path
  | .read path => store.Found files path ∧ (held (normalPath path) ≠ [] →
      FilePath.check (store.commitsOf path ++ [Commit.name 0]) = .ok ())
  | .count path => store.Found files path

theorem perform_append (store : DiskStore) (files : FileTree) (limit : Duration) (path : String)
    (payload : Bytes) :
    TableStore.perform store files limit (.append path payload) =
      ⟨.finished limit ((store.append files path payload).1.map .version),
        (store.append files path payload).2.1, (store.append files path payload).2.2⟩ :=
  Attempt.map_finished _ _ _ _ _

theorem perform_read (store : DiskStore) (files : FileTree) (limit : Duration) (path : String) :
    TableStore.perform store files limit (.read path) =
      ⟨.finished limit ((store.read files path).map .records), store, files⟩ :=
  Attempt.map_finished _ _ _ _ _

theorem perform_count (store : DiskStore) (files : FileTree) (limit : Duration) (path : String) :
    TableStore.perform store files limit (.count path) =
      ⟨.finished limit ((store.count files path).map .number), store, files⟩ :=
  Attempt.map_finished _ _ _ _ _

/-- A request that has met no error of the operating system was served. -/
theorem serves_of_undisturbed {held : String → List Bytes} {request : TableRequest}
    (mirrors : Mirrors store.base files root held) (tries : 0 < store.attempts)
    (calm : (TableStore.perform store files limit request).outcome.Undisturbed) :
    store.Serves files held request := by
  cases request with
  | append path payload =>
    rw [perform_append] at calm
    exact unhindered_of_append tries (calm.ne_error path)
  | read path =>
    rw [perform_read] at calm
    exact ⟨found_of_read (calm.ne_error path), mirrors.reachable_of_read (calm.ne_error path)⟩
  | count path =>
    rw [perform_count] at calm
    exact found_of_count (calm.ne_error path)

/-- A request within the limits is served. -/
theorem serves_of_limits {held : String → List Bytes} {request : TableRequest} {stagings : Nat}
    (mirrors : Mirrors store.base files root held)
    (limits : store.WithinLimits request.path (stagings + 1)) :
    store.Serves files held request := by
  cases request with
  | append path payload => exact limits.unhindered mirrors
  | read path => exact ⟨limits.found mirrors, fun _ => limits.commits⟩
  | count path => exact limits.found mirrors

/-- A store on disk answers a request as the lists say, and asks for one staging file at most. -/
theorem Mirrors.perform (mirrors : Mirrors store.base files root (recorded earlier))
    (tries : 0 < store.attempts) {request : TableRequest}
    (few : ∀ path, (recorded (earlier ++ [request]) (normalPath path)).length <
      Commit.versionLimit) (limit : Duration)
    (serves : store.Serves files (recorded earlier) request) :
    ∃ asked ≤ 1, ∃ after, TableStore.perform store files limit request =
        ⟨.finished limit (.ok (request.answer (recorded earlier (normalPath request.path)))),
          { store with staged := store.staged + asked }, after⟩ ∧
      Mirrors store.base after root (recorded (earlier ++ [request])) := by
  rw [recorded_concat] at few ⊢
  cases request with
  | append path payload =>
    have bound := few path
    simp only [record, if_pos, List.length_append, List.length_singleton] at bound
    obtain ⟨after, appended, still⟩ := mirrors.append tries serves bound payload
    refine ⟨1, le_rfl, after, ?_, still⟩
    rw [perform_append, appended]
    rfl
  | read path =>
    refine ⟨0, Nat.zero_le 1, files, ?_, mirrors⟩
    rw [perform_read, mirrors.read serves.1 serves.2]
    rfl
  | count path =>
    refine ⟨0, Nat.zero_le 1, files, ?_, mirrors⟩
    rw [perform_count, mirrors.count serves]
    rfl

/-- A store on disk answers requests as the lists say, if none of them meets an error of the
operating system or all of their paths are within the limits. -/
theorem Mirrors.answers (limit : Duration) (later : List TableRequest)
    (mirrors : Mirrors store.base files root (recorded earlier)) (tries : 0 < store.attempts)
    (few : ∀ path, (recorded (earlier ++ later) (normalPath path)).length < Commit.versionLimit)
    (calm : (∀ answer ∈ TableStore.answers limit store files later, answer.Undisturbed) ∨
      ∀ request ∈ later, store.WithinLimits request.path later.length) :
    TableStore.answers limit store files later =
      (answersAfter earlier later).map fun answer => .finished limit (.ok answer) := by
  induction later generalizing store files earlier with
  | nil => rfl
  | cons request rest inductionHypothesis =>
    have split : earlier ++ request :: rest = earlier ++ [request] ++ rest := by simp
    rw [split] at few
    have serves : store.Serves files (recorded earlier) request := by
      rcases calm with undisturbed | limits
      · exact serves_of_undisturbed mirrors tries (undisturbed _ List.mem_cons_self)
      · exact serves_of_limits mirrors (limits request List.mem_cons_self)
    obtain ⟨asked, once, after, performed, still⟩ :=
      mirrors.perform tries (fun path => (length_recorded_le _ rest _).trans_lt (few path)) limit
        serves
    rw [TableStore.answers, performed] at calm ⊢
    have others : (∀ answer ∈ TableStore.answers limit
          { store with staged := store.staged + asked } after rest, answer.Undisturbed) ∨
        ∀ request ∈ rest, { store with staged := store.staged + asked }.WithinLimits
          request.path rest.length := by
      rcases calm with undisturbed | limits
      · exact Or.inl fun answer inside => undisturbed answer (List.mem_cons_of_mem _ inside)
      · exact Or.inr fun request inside =>
          (limits request (List.mem_cons_of_mem _ inside)).after once
    have answered := @inductionHypothesis { store with staged := store.staged + asked } after _
      still tries few others
    rw [answersAfter, List.map_cons, answered]

/-- Below a base directory that is empty at first, a store on disk gives each request the answer
that an empty store in memory gives it once its path is in its normal form, also where tables stand
in the directories of others. The answer is determined by the records that earlier requests have
appended under the same normal form: the versions of a table are one, two, three and so on, and
requests for other tables do not change its answers. This holds for every run that meets no error of
the operating system, and a run whose paths are within the limits is such a run. A version is a
number that 64 bits hold, so no table has more records than that. -/
theorem agrees_with_memory {store : DiskStore} {files : FileTree} (tries : 0 < store.attempts)
    (wellFormed : files.WellFormed) (empty : files.list store.base = .ok [])
    (limit : Duration) (memoryFiles : FileTree) {requests : List TableRequest}
    (few : ∀ path, (recorded requests (normalPath path)).length < Commit.versionLimit)
    (calm : (∀ answer ∈ TableStore.answers limit store files requests, answer.Undisturbed) ∨
      ∀ request ∈ requests, store.WithinLimits request.path requests.length) :
    TableStore.answers limit store files requests =
        TableStore.answers limit MemoryStore.empty memoryFiles (requests.map normal) ∧
      ∀ earlier request later, requests = earlier ++ request :: later →
        (TableStore.answers limit store files requests)[earlier.length]? =
          some (.finished limit
            (.ok (request.answer (recorded earlier (normalPath request.path))))) := by
  obtain ⟨root, mirrors⟩ := mirrors_of_empty wellFormed empty
  have none : (recorded [] : String → List Bytes) = fun _ => [] := rfl
  rw [← none] at mirrors
  have onDisk := mirrors.answers limit requests tries few calm
  have fresh : MemoryStore.empty.Holds [] := ⟨rfl, rfl, fun _ => rfl⟩
  refine ⟨onDisk.trans (MemoryStore.answers_eq fresh memoryFiles requests).symm, ?_⟩
  rintro earlier request later rfl
  rw [onDisk, List.getElem?_map, getElem?_answersAfter]
  rfl

/-- A base directory without tables. -/
def freshTree : FileTree where
  entries := [(["data"], .directory)]

/-- Requests for a table, also under another path, and for the table whose directory holds it. -/
def nestedRequests : List TableRequest :=
  [.append "a/b" [1], .append "a" [2], .append "/a//b" [3], .read "a/b/", .count "a"]

/-- The names of the first ten staging files. -/
theorem stagingName_digit (base : FilePath) {staged : Nat} (digit : staged < 10) :
    { ofBase base with staged := staged }.stagingName =
      ".staging-0-" ++ String.ofList [Decimal.Digit.char (Fin.ofNat 10 staged)] := by
  rw [stagingName, ofBase, Decimal.text, Decimal.text, Decimal.digits_zero, Decimal.digits,
    if_pos digit]
  rfl

theorem limits_nestedRequests : ∀ request ∈ nestedRequests,
    (ofBase ["data"]).WithinLimits request.path nestedRequests.length := by
  intro request inside
  have staging : ∀ number < nestedRequests.length,
      { ofBase ["data"] with staged := (ofBase ["data"]).staged + number }.stagingName =
        ".staging-0-" ++ String.ofList [Decimal.Digit.char (Fin.ofNat 10 number)] := by
    intro number few
    rw [← stagingName_digit ["data"] (few.trans (by decide))]
    simp [ofBase]
  have commits : FilePath.check ((ofBase ["data"]).commitsOf request.path ++ [Commit.name 0]) =
      .ok () := by
    revert request
    decide
  refine ⟨?_, ?_, commits, fun number few => ?_, fun number few => ?_⟩
  · revert request
    decide
  · revert request
    decide
  · rw [staging number few]
    refine FilePath.check_of_shorter commits ?_ ?_
    · revert number
      decide
    · rw [Commit.length_encode_name]
      revert number
      decide
  · rw [staging number few]
    revert number
    decide

theorem agrees_nestedRequests :
    TableStore.answers ⟨0⟩ (ofBase ["data"]) freshTree nestedRequests =
      [.finished ⟨0⟩ (.ok (.version 1)), .finished ⟨0⟩ (.ok (.version 1)),
        .finished ⟨0⟩ (.ok (.version 2)), .finished ⟨0⟩ (.ok (.records [[1], [3]])),
        .finished ⟨0⟩ (.ok (.number 1))] := by
  have few : ∀ path, (recorded nestedRequests (normalPath path)).length < Commit.versionLimit :=
    fun path => (List.length_filterMap_le _ _).trans_lt (by decide)
  rw [(agrees_with_memory (by decide) (by decide) (by decide) ⟨0⟩ freshTree few
    (Or.inr limits_nestedRequests)).1]
  decide

end DiskStore

end EventRelay
