import EventRelay.Proofs.Store.Agreement
import EventRelay.Proofs.Store.Writer
import Mathlib

/-!
# Verification changes nothing but the receipt

In memory and on disk every record that is appended is counted, whatever else a table holds, and
counting changes nothing. So a verified append does what a plain one does, and only its receipt says
that it is verified. A store that counts differently is found out: verification fails exactly where
the number of records has not grown.
-/

namespace EventRelay

open Text (Bytes)

/-- The receipt of the same record after verification. -/
def Receipt.confirm (receipt : Receipt) : Receipt :=
  { receipt with verified := true }

/-- An answer in another form, if there is one in time. -/
def Timed.map {First Second : Type} (convert : First → Second) : Timed First → Timed Second
  | .finished left answer => .finished left (convert answer)
  | .overdue => .overdue

/-- Giving an answer in another form changes nothing else. -/
theorem Attempt.map_eq {Store First Second : Type} (convert : First → Second)
    (attempt : Attempt Store First) :
    attempt.map convert =
      ⟨attempt.outcome.map (Except.map convert), attempt.store, attempt.files⟩ := by
  obtain ⟨outcome, store, files⟩ := attempt
  rcases outcome with ⟨left, problem | answer⟩ | - <;> rfl

/-- An append with verification and one without it come to the same, but for the receipt. -/
structure Transparent {Store : Type}
    (confirmed plain : Except WriteError Receipt × TableWriter Store × FileTree) : Prop where
  answer : confirmed.1 = plain.1.map Receipt.confirm
  unverified : ∀ receipt, plain.1 = .ok receipt → receipt.verified = false
  unrefused : ∀ path before after, confirmed.1 ≠ .error (.verification path before after)
  writer : confirmed.2.1 = { plain.2.1 with verify := true }
  files : confirmed.2.2 = plain.2.2

/-- No operation of a store itself fails with an error of verification. -/
structure Unverifying (Store : Type) [TableStore Store] : Prop where
  append : ∀ (store : Store) files path payload limit left other before after,
    (TableStore.append store files path payload limit).outcome ≠
      .finished left (.error (.verification other before after))
  count : ∀ (store : Store) files path limit left other before after,
    (TableStore.count store files path limit).outcome ≠
      .finished left (.error (.verification other before after))

namespace TableWriter

variable {Store : Type} [TableStore Store]

/-- A writer that verifies, or one that does not. -/
def verifying (writer : TableWriter Store) (verify : Bool) : TableWriter Store :=
  { writer with verify }

/-! ## Any store -/

/-- The steps of a verified append decide what it is finished with. -/
theorem appendVerified_of_recounts {store : Store} {files : FileTree} {path : String}
    {payload : Bytes} {limit left : Duration} {before version after : Nat}
    (recounts : Recounts store files path payload limit left before version after) :
    (appendVerified store files path payload limit).outcome = .finished left
      (if after ≤ before then .error (.verification path before after)
        else .ok ⟨path, version, payload.length, true⟩) := by
  obtain ⟨first, counted, second, appended, recounted⟩ := recounts
  simp only [appendVerified, Attempt.andThen, counted, appended, recounted]

/-- Over a store that does not itself answer so, verification fails exactly where all steps succeed
and the number of records has not grown. -/
theorem append_eq_verification_iff (unverifying : Unverifying Store) (writer : TableWriter Store)
    (files : FileTree) (destination : Destination) (payload : Bytes) (path : String)
    (before after : Nat) :
    ((writer.verifying true).append files destination payload).1 =
        .error (.verification path before after) ↔
      path = writer.pathOf destination ∧ after ≤ before ∧ ∃ left version,
        Recounts writer.store files path payload writer.timeout.inMilliseconds left before version
          after := by
  have asked : (writer.verifying true).attempt files destination payload =
      appendVerified writer.store files (writer.pathOf destination) payload
        writer.timeout.inMilliseconds := rfl
  rw [append_eq_error_iff (by simp), asked]
  constructor
  · rintro ⟨left, ends⟩
    obtain ⟨problem, store, files, path, limit, same, failed | failed⟩ |
      ⟨count, version, recount, recounts, same⟩ := appendVerified_eq_finished ends
    · cases same
      exact (unverifying.count _ _ _ _ _ _ _ _ failed).elim
    · cases same
      exact (unverifying.append _ _ _ _ _ _ _ _ _ failed).elim
    · split at same
      · rename_i small
        cases same
        exact ⟨rfl, small, left, version, recounts⟩
      · cases same
  · rintro ⟨rfl, small, left, version, recounts⟩
    exact ⟨left, by rw [appendVerified_of_recounts recounts, if_pos small]⟩

/-- Where counting takes no time, changes nothing and succeeds before the append, and a record that
is appended is counted, a verified append is a plain one with another receipt. -/
theorem appendVerified_eq_map (number : Store → FileTree → String → Except WriteError Nat)
    (looks : ∀ store files path limit, TableStore.count store files path limit =
      ⟨.finished limit (number store files path), store, files⟩)
    {store : Store} {files : FileTree} {path : String} {payload : Bytes} {limit : Duration}
    {before : Nat} (counted : number store files path = .ok before)
    (grows : ∀ left version, (TableStore.append store files path payload limit).outcome =
        .finished left (.ok version) →
      ∃ after, before < after ∧ number (TableStore.append store files path payload limit).store
        (TableStore.append store files path payload limit).files path = .ok after) :
    appendVerified store files path payload limit =
      (appendPlain store files path payload limit).map Receipt.confirm := by
  simp only [appendVerified, appendPlain, Attempt.map, Attempt.andThen, looks, counted]
  generalize TableStore.append store files path payload limit = appended at grows ⊢
  obtain ⟨outcome, later, afterwards⟩ := appended
  rcases outcome with ⟨left, problem | version⟩ | -
  · rfl
  · obtain ⟨after, more, recounted⟩ := grows left version rfl
    simp only [recounted, if_neg (Nat.not_le.mpr more)]
    rfl
  · rfl

/-- Operations that differ in the receipt alone let the writers do so, too. -/
theorem transparent_of_map (unverifying : Unverifying Store) {writer : TableWriter Store}
    {files : FileTree} {destination : Destination} {payload : Bytes}
    (same : appendVerified writer.store files (writer.pathOf destination) payload
        writer.timeout.inMilliseconds =
      (appendPlain writer.store files (writer.pathOf destination) payload
        writer.timeout.inMilliseconds).map Receipt.confirm) :
    Transparent ((writer.verifying true).append files destination payload)
      ((writer.verifying false).append files destination payload) := by
  have confirmed : (writer.verifying true).attempt files destination payload =
      ((writer.verifying false).attempt files destination payload).map Receipt.confirm := same
  rw [Attempt.map_eq] at confirmed
  rcases ends : ((writer.verifying false).attempt files destination payload).outcome with
    ⟨left, problem | receipt⟩ | -
  · have failed : ((writer.verifying true).attempt files destination payload).outcome =
        .finished left (.error problem) := by rw [confirmed, ends]; rfl
    have unrefused : ∀ path before after, problem ≠ .verification path before after := by
      rintro path before after rfl
      obtain ⟨problem | version, appended, same⟩ := appendPlain_eq_finished_iff.mp ends
      · cases same
        exact unverifying.append _ _ _ _ _ _ _ _ _ appended
      · cases same
    rw [append_of_error failed, append_of_error ends, confirmed]
    exact ⟨rfl, by simp, by simpa using unrefused, rfl, rfl⟩
  · have written : ((writer.verifying true).attempt files destination payload).outcome =
        .finished left (.ok receipt.confirm) := by rw [confirmed, ends]; rfl
    have unverified : receipt.verified = false := by
      obtain ⟨problem | version, -, same⟩ := appendPlain_eq_finished_iff.mp ends
      · cases same
      · rw [Except.ok.inj same]
    rw [append_of_ok written, append_of_ok ends, confirmed]
    exact ⟨rfl, by simpa using unverified, by simp, rfl, rfl⟩
  · have late : ((writer.verifying true).attempt files destination payload).outcome = .overdue := by
      rw [confirmed, ends]; rfl
    rw [append_of_overdue late, append_of_overdue ends, confirmed]
    exact ⟨rfl, by simp, by simp, rfl, rfl⟩

end TableWriter

/-! ## In memory -/

namespace MemoryStore

/-- A store in memory only ever fails when it is told to. -/
theorem unverifying : Unverifying MemoryStore where
  append store files path payload limit left other before after := by
    change (store.append files path payload limit).outcome ≠ _
    unfold append
    dsimp only
    split
    · simp
    · split <;> simp
  count store files path limit left other before after := by
    change Timed.finished limit (Except.ok (store.records path).length) ≠ _
    simp

/-- A record that is appended is one record more, in any state of the store. -/
theorem length_records_append {store : MemoryStore} {files : FileTree} {path : String}
    {payload : Bytes} {limit left : Duration} {version : Nat}
    (appended : (store.append files path payload limit).outcome = .finished left (.ok version)) :
    ((store.append files path payload limit).store.records path).length =
      (store.records path).length + 1 := by
  unfold append at appended ⊢
  dsimp only at appended ⊢
  split at appended
  · cases appended
  · rename_i inTime
    split at appended
    · cases appended
    · rename_i working
      rw [if_neg inTime, if_neg working, records, lookup_addRecord, if_pos rfl,
        List.length_append, List.length_singleton, records]

/-- Verification is transparent over a store in memory, whether it is failing, takes its time or
not. -/
theorem transparent (writer : TableWriter MemoryStore) (files : FileTree)
    (destination : Destination) (payload : Bytes) :
    Transparent ((writer.verifying true).append files destination payload)
      ((writer.verifying false).append files destination payload) := by
  refine TableWriter.transparent_of_map unverifying (TableWriter.appendVerified_eq_map
    (fun store _ path => .ok (store.records path).length) (fun _ _ _ _ => rfl) rfl ?_)
  intro left version appended
  have grown := length_records_append appended
  exact ⟨_, (Nat.lt_succ_self _).trans_eq grown.symm, rfl⟩

end MemoryStore

/-! ## On disk -/

namespace DiskStore

variable {store : DiskStore} {files made : FileTree} {path : String} {payload : Bytes}
  {version : Nat} {place : Place}

/-- Claiming a version fails with an error of the operating system, or with a conflict. -/
theorem commit_ne_verification (directory : FilePath) (first : Nat) (other : String)
    (before after : Nat) : (store.commit files path directory first payload).1 ≠
      .error (.verification other before after) := by
  unfold commit
  dsimp only
  split
  · simp
  · split <;> simp

/-- A store on disk fails with an error of the operating system, or with a conflict. -/
theorem unverifying : Unverifying DiskStore where
  append store files path payload limit left other before after := by
    change Timed.finished limit (store.append files path payload).1 ≠ _
    unfold append
    dsimp only
    split
    · simp
    · split
      · simp
      · simpa using fun _ => commit_ne_verification _ _ other before after
  count store files path limit left other before after := by
    change Timed.finished limit (store.count files path) ≠ _
    unfold count
    split <;> simp

/-- None of the versions that a table has once its directory is made is the largest one that there
can be. -/
def HasRoom (store : DiskStore) (files : FileTree) (path : String) : Prop :=
  ∀ versions, versionsIn (files.makeDirectories (store.commitsOf path)).2 (store.commitsOf path) =
    .ok versions → ∀ version ∈ versions, version + 1 < Commit.versionLimit

/-- The first version that is tried has no file yet. -/
theorem free_firstFree
    (room : ∀ version ∈ versionsAt made place, version + 1 < Commit.versionLimit) :
    firstFree (versionsAt made place).mergeSort < Commit.versionLimit ∧
      made.node? (place ++ [Commit.name (firstFree (versionsAt made place).mergeSort)]) = none := by
  have next := isNext_firstFree room
  generalize firstFree (versionsAt made place).mergeSort = version at next ⊢
  have fits : version < Commit.versionLimit := by
    rcases next with ⟨-, rfl⟩ | ⟨last, held, -, rfl⟩
    · decide
    · exact room last held
  refine ⟨fits, ?_⟩
  by_contra taken
  exact Nat.lt_irrefl version
    (next.lt (mem_versionsAt.mpr ⟨fits, Option.ne_none_iff_exists'.mp taken⟩))

/-- Where a version has been claimed, one can be: it may be tried for, and the paths to commit files
are not refused. -/
theorem unrefused_of_claim {directory : FilePath} {tries first : Nat} {linked : Nat × FileTree}
    (claimed : claim made directory payload tries first = .ok linked) :
    0 < tries ∧ FilePath.check (directory ++ [Commit.name 0]) = .ok () := by
  have some : 0 < tries := by
    by_contra none
    rw [Nat.eq_zero_of_not_pos none, claim] at claimed
    cases claimed
  refine ⟨some, ?_⟩
  cases refused : FilePath.check (directory ++ [Commit.name 0]) with
  | ok => rfl
  | error problem =>
    obtain ⟨other, failed⟩ := @exists_claim_eq_error made _ _ _ some refused payload first
    rw [failed] at claimed
    cases claimed

/-- A record that has been committed has been staged before, and a version has been claimed for
it. -/
theorem exists_claim_of_commit {directory : FilePath} {first : Nat}
    (committed : (store.commit made path directory first payload).1 = .ok version) :
    ∃ staged linked, made.create (directory ++ [store.stagingName]) payload = .ok staged ∧
      claim staged directory payload store.attempts first = .ok linked := by
  unfold commit at committed
  dsimp only at committed
  split at committed
  · cases committed
  · rename_i staged created
    split at committed
    · rename_i claimed
      exact ⟨staged, _, created, claimed⟩
    · cases committed
    · cases committed

/-- Where a version is claimed at all and the first one has no file, the record is linked to that
one and nothing else is left behind. -/
theorem commit_eq_of_ok (wellFormed : made.WellFormed)
    (leads : made.directoryAt (store.commitsOf path) = .ok place) {first : Nat}
    (free : made.node? (place ++ [Commit.name first]) = none)
    (committed : (store.commit made path (store.commitsOf path) first payload).1 = .ok version) :
    store.commit made path (store.commitsOf path) first payload =
      (.ok first, made.add (place ++ [Commit.name first]) (.file (.ok payload))) := by
  have follows := (FileTree.directoryAt_eq_ok.mp leads).2.2
  obtain ⟨staged, linked, created, claimed⟩ := exists_claim_of_commit committed
  obtain ⟨tries, commits⟩ := unrefused_of_claim claimed
  obtain ⟨reachable, short⟩ := FileTree.short_of_create store.isName_stagingName
    (store.commitsOf_ne_root path) follows created
  have staging : FileTree.Names (store.commitsOf path) store.stagingName :=
    ⟨store.commitsOf_ne_root path, store.isName_stagingName.1, store.isName_stagingName.2, short,
      reachable⟩
  have unstaged : made.node? (place ++ [store.stagingName]) = none := by
    have missing := FileTree.stat_of_create created
    rw [staging.stat follows] at missing
    split at missing
    · assumption
    · cases missing
  exact commit_eq wellFormed follows staging (names_commit (Commit.check_name 0 commits first))
    unstaged free tries path payload

/-- Making the directory of a table takes none of its versions away. -/
theorem count_le (making : files.makeDirectories (store.commitsOf path) = (.ok (), made))
    (leads : made.directoryAt (store.commitsOf path) = .ok place) {before : Nat}
    (counted : store.count files path = .ok before) : before ≤ (recordsAt made place).length := by
  rcases FileTree.eq_or_notFound_of_makeFrom (makeFrom_commitsOf making leads) with rfl | nowhere
  · rw [count_eq leads] at counted
    exact (Except.ok.inj counted).ge
  · obtain ⟨fits, notRoot, -⟩ := FileTree.directoryAt_eq_ok.mp leads
    have missing : files.directoryAt (store.commitsOf path) = .error .notFound := by
      rw [FileTree.directoryAt, FileTree.stat, fits]
      simp [notRoot, nowhere]
    rw [(read_of_notFound missing).2] at counted
    exact (Except.ok.inj counted).symm.trans_le (Nat.zero_le _)

/-- The commit file of a version is one record more that is counted. -/
theorem count_add (leads : made.directoryAt (store.commitsOf path) = .ok place)
    (fits : version < Commit.versionLimit)
    (free : made.node? (place ++ [Commit.name version]) = none) :
    store.count (made.add (place ++ [Commit.name version]) (.file (.ok payload))) path =
      .ok ((recordsAt made place).length + 1) := by
  obtain ⟨short, notRoot, follows⟩ := FileTree.directoryAt_eq_ok.mp leads
  have still := FileTree.directoryAt_eq_ok.mpr
    ⟨short, notRoot,
      FileTree.follow_of_within (FileTree.within_add free (.file (.ok payload))) follows⟩
  rw [count_eq still, recordsAt, versionsAt_add made place fits, recordsAt]
  simp

/-- A record that is appended is counted, whatever the directory of the table holds. -/
theorem count_append (wellFormed : files.WellFormed) (room : store.HasRoom files path)
    {before : Nat} (counted : store.count files path = .ok before)
    (appended : (store.append files path payload).1 = .ok version) :
    ∃ after, before < after ∧ (store.append files path payload).2.1.count
      (store.append files path payload).2.2 path = .ok after := by
  unfold append at appended ⊢
  dsimp only at appended ⊢
  rcases making : files.makeDirectories (store.commitsOf path) with ⟨problem | _, made⟩
  · rw [making] at appended
    cases appended
  · obtain ⟨place, leads⟩ := exists_directoryAt making
    rw [HasRoom, making] at room
    have bounded := fun version inside => room _ (versionsIn_eq leads) version
      (List.mem_mergeSort.mpr inside)
    obtain ⟨fits, free⟩ := free_firstFree bounded
    have made_wellFormed : made.WellFormed := by
      have kept := wellFormed.makeFrom (files.node?_start (store.commitsOf path))
        (store.commitsOf path)
      rwa [makeFrom_commitsOf making leads] at kept
    rw [making] at appended
    dsimp only at appended ⊢
    rw [versionsIn_eq leads] at appended ⊢
    dsimp only at appended ⊢
    rw [commit_eq_of_ok made_wellFormed leads free appended]
    exact ⟨_, Nat.lt_succ_of_le (count_le making leads counted),
      @count_add { store with staged := store.staged + 1 } made path payload _ place leads fits
        free⟩

/-- Verification is transparent over a store on disk, as long as no table is full and counting meets
no error of the operating system. -/
theorem transparent {writer : TableWriter DiskStore} {destination : Destination}
    (wellFormed : files.WellFormed) (room : writer.store.HasRoom files (writer.pathOf destination))
    (calm : ∀ cause, writer.store.count files (writer.pathOf destination) ≠
      .error (.inputOutput (writer.pathOf destination) cause)) (payload : Bytes) :
    Transparent ((writer.verifying true).append files destination payload)
      ((writer.verifying false).append files destination payload) := by
  obtain ⟨before, counted⟩ : ∃ before,
      writer.store.count files (writer.pathOf destination) = .ok before := by
    unfold count at calm ⊢
    split at calm
    · rename_i problem _
      exact absurd rfl (calm problem.message)
    · exact ⟨_, rfl⟩
  refine TableWriter.transparent_of_map unverifying (TableWriter.appendVerified_eq_map
    count (fun _ _ _ _ => rfl) counted ?_)
  intro left version appended
  exact count_append wellFormed room counted (Timed.finished.inj appended).2

end DiskStore

/-- Verification is transparent over the stores that there are, in every state that they can be in:
in memory, and on disk as long as the operating system lets the table be counted and none of its
versions is the largest one. Over any store that does not itself answer so, verification fails
exactly where counting and appending succeed and the number of records has not grown. -/
theorem verification_transparent :
    (∀ (writer : TableWriter MemoryStore) (files : FileTree) (destination : Destination)
        (payload : Bytes),
      Transparent ((writer.verifying true).append files destination payload)
        ((writer.verifying false).append files destination payload)) ∧
      (∀ (writer : TableWriter DiskStore) (files : FileTree) (destination : Destination)
          (payload : Bytes), files.WellFormed →
        writer.store.HasRoom files (writer.pathOf destination) →
        (∀ cause, writer.store.count files (writer.pathOf destination) ≠
          .error (.inputOutput (writer.pathOf destination) cause)) →
        Transparent ((writer.verifying true).append files destination payload)
          ((writer.verifying false).append files destination payload)) ∧
      ∀ (Store : Type) [TableStore Store] (writer : TableWriter Store) (files : FileTree)
          (destination : Destination) (payload : Bytes) (path : String) (before after : Nat),
        Unverifying Store →
        (((writer.verifying true).append files destination payload).1 =
            .error (.verification path before after) ↔
          path = writer.pathOf destination ∧ after ≤ before ∧ ∃ left version,
            TableWriter.Recounts writer.store files path payload writer.timeout.inMilliseconds left
              before version after) :=
  ⟨MemoryStore.transparent,
    fun _ _ _ payload wellFormed room calm => DiskStore.transparent wellFormed room calm payload,
    fun _ _ writer files destination payload path before after unverifying =>
      TableWriter.append_eq_verification_iff unverifying writer files destination payload path
        before after⟩

/-- A store that answers every append and keeps nothing. -/
structure LosingStore where

instance : TableStore LosingStore where
  kind _ := "losing"
  append store files _ _ limit := ⟨.finished limit (.ok 1), store, files⟩
  read store files _ limit := ⟨.finished limit (.ok []), store, files⟩
  count store files _ limit := ⟨.finished limit (.ok 0), store, files⟩

theorem unverifying_losingStore : Unverifying LosingStore where
  append := by simp [TableStore.append]
  count := by simp [TableStore.count]

theorem hasRoom_sparseTable :
    (DiskStore.ofBase ["."]).HasRoom DiskStore.sparseTable "data/orders" := by
  intro versions listed version inside
  have leads : (DiskStore.sparseTable.makeDirectories
      ((DiskStore.ofBase ["."]).commitsOf "data/orders")).2.directoryAt
        ((DiskStore.ofBase ["."]).commitsOf "data/orders") = .ok DiskStore.sparsePlace := by
    decide
  rw [DiskStore.versionsIn_eq leads] at listed
  rw [← Except.ok.inj listed, List.mem_mergeSort] at inside
  revert version
  decide

/-- Over a table with a gap and a file that is no commit file verification is transparent, and a
store that loses what it is given is found out. -/
theorem verification_of_sparseTable_of_losingStore :
    DiskStore.sparseTable.WellFormed ∧
      (DiskStore.ofBase ["."]).HasRoom DiskStore.sparseTable "data/orders" ∧
      (∀ cause, (DiskStore.ofBase ["."]).count DiskStore.sparseTable "data/orders" ≠
        .error (.inputOutput "data/orders" cause)) ∧
      Transparent
        (((TableWriter.ofStore (DiskStore.ofBase ["."])).verifying true).append
          DiskStore.sparseTable ⟨"data", "orders"⟩ [54])
        (((TableWriter.ofStore (DiskStore.ofBase ["."])).verifying false).append
          DiskStore.sparseTable ⟨"data", "orders"⟩ [54]) ∧
      Unverifying LosingStore ∧
      (((TableWriter.ofStore (⟨⟩ : LosingStore)).verifying true).append FileTree.empty
        ⟨"data", "orders"⟩ [54]).1 = .error (.verification "data/orders" 0 0) := by
  have wellFormed : DiskStore.sparseTable.WellFormed := by decide
  have path : Destination.path ⟨"data", "orders"⟩ none = "data/orders" := by decide
  have calm : ∀ cause, (DiskStore.ofBase ["."]).count DiskStore.sparseTable "data/orders" ≠
      .error (.inputOutput "data/orders" cause) := by
    have leads : DiskStore.sparseTable.directoryAt
        ((DiskStore.ofBase ["."]).commitsOf "data/orders") = .ok DiskStore.sparsePlace := by
      decide
    simp [DiskStore.count_eq leads]
  refine ⟨wellFormed, hasRoom_sparseTable, calm, ?_, unverifying_losingStore, ?_⟩
  · exact verification_transparent.2.1 (TableWriter.ofStore (DiskStore.ofBase ["."]))
      DiskStore.sparseTable ⟨"data", "orders"⟩ [54] wellFormed
      (by rw [TableWriter.pathOf, TableWriter.ofStore, path]; exact hasRoom_sparseTable)
      (by rw [TableWriter.pathOf, TableWriter.ofStore, path]; exact calm)
  · exact (verification_transparent.2.2 LosingStore (TableWriter.ofStore ⟨⟩) FileTree.empty
      ⟨"data", "orders"⟩ [54] "data/orders" 0 0 unverifying_losingStore).mpr
      ⟨path.symm, le_rfl, _, 1, _, rfl, _, rfl, rfl⟩

end EventRelay
