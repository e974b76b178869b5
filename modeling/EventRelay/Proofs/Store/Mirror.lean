import EventRelay.Proofs.Store.Layout
import Mathlib

/-!
# Tables on disk as lists of records

Below a base directory that was empty at first, each table holds the versions 1, 2, 3 and so on, and
its records are those that have been appended under paths of one normal form. Making directories
keeps all of this, and a commit file adds its record to one list. So an operation that meets no
error of the operating system answers what the list says.
-/

namespace EventRelay

open Text (Bytes)

namespace DiskStore

variable {store : DiskStore} {base : FilePath} {files made : FileTree} {root place : Place}
  {held : String → List Bytes} {path : String}

/-! ## What is added elsewhere -/

/-- What is added where no commit file of a directory stands leaves its records alone. -/
theorem recordsAt_add_elsewhere {other : Place} (free : files.node? other = none)
    (elsewhere : ∀ version, other ≠ place ++ [Commit.name version]) (node : FileNode) :
    versionsAt (files.add other node) place = versionsAt files place ∧
      recordsAt (files.add other node) place = recordsAt files place := by
  have unnamed : (place.nameIn? other).bind Commit.version? = none := by
    rw [Option.bind_eq_none_iff]
    intro name named
    cases stands : Commit.version? name with
    | none => rfl
    | some version =>
      obtain ⟨rfl, -⟩ := Commit.name_of_version? stands
      exact absurd (Place.nameIn?_eq_some.mp named) (elsewhere version)
  have versions : versionsAt (files.add other node) place = versionsAt files place := by
    simp [versionsAt, FileTree.add, List.filterMap_append, unnamed]
  refine ⟨versions, ?_⟩
  rw [recordsAt, recordsAt, versions]
  refine List.map_congr_left fun version inside => ?_
  rw [contentAt, contentAt, FileTree.node?_add free, if_neg (elsewhere version).symm]

/-- Sorting does not change the order of versions that are listed one after the other. -/
theorem mergeSort_range' (count : Nat) :
    (List.range' 1 count).mergeSort = List.range' 1 count :=
  List.mergeSort_of_pairwise (by simpa using List.pairwise_le_range')

/-- The version after those from one on. -/
theorem firstFree_range' {count : Nat} (few : count + 1 < Commit.versionLimit) :
    firstFree (List.range' 1 count).mergeSort = count + 1 := by
  rw [mergeSort_range', firstFree]
  cases count with
  | zero => rfl
  | succ before =>
    rw [List.range'_concat, List.getLast?_concat]
    dsimp only
    rw [Commit.next_eq (by omega)]
    omega

/-! ## Lists of records -/

/-- The lists with one record more under the normal form of a path. -/
def record (path : String) (payload : Bytes) (held : String → List Bytes) : String → List Bytes :=
  fun normal => held normal ++ if normalPath path = normal then [payload] else []

/-- The tables below a base directory hold the records of the lists, and their versions are
numbered from one on. -/
structure Mirrors (base : FilePath) (files : FileTree) (root : Place)
    (held : String → List Bytes) : Prop extends Layout base files root where
  versions : ∀ path, versionsAt files (root ++ commitNames path) =
    List.range' 1 (held (normalPath path)).length
  records : ∀ path, recordsAt files (root ++ commitNames path) = held (normalPath path)

/-- There are no records below an empty directory. -/
theorem mirrors_of_empty (wellFormed : files.WellFormed) (empty : files.list base = .ok []) :
    ∃ root, Mirrors base files root fun _ => [] := by
  obtain ⟨root, layout, free⟩ := layout_of_empty wellFormed empty
  have versions : ∀ path, versionsAt files (root ++ commitNames path) = [] := by
    intro path
    refine List.eq_nil_iff_forall_not_mem.mpr fun version inside => ?_
    obtain ⟨-, node, there⟩ := mem_versionsAt.mp inside
    rw [List.append_assoc, free _ (by simp) (inward_front List.prefix_rfl)] at there
    simp at there
  exact ⟨root, layout, versions, fun path => by simp [recordsAt, versions]⟩

namespace Mirrors

/-- A directory on the way to commit files holds no records. -/
theorem add_directory (mirrors : Mirrors base files root held) {front : List String}
    (begins : front <+: commitNames path) (free : files.node? (root ++ front) = none)
    (parent : files.node? (root ++ front).dropLast = some .directory) :
    Mirrors base (files.add (root ++ front) .directory) root held := by
  have laid := (laid_front begins).mpr rfl
  have kept : ∀ other, versionsAt (files.add (root ++ front) .directory)
        (root ++ commitNames other) = versionsAt files (root ++ commitNames other) ∧
      recordsAt (files.add (root ++ front) .directory) (root ++ commitNames other) =
        recordsAt files (root ++ commitNames other) := by
    intro other
    refine recordsAt_add_elsewhere free (fun version same => ?_) _
    rw [List.append_assoc] at same
    rw [List.append_cancel_left same] at laid
    obtain ⟨_, _, _, file⟩ := laid_commitNames_append.mp laid
    simp at file
  exact ⟨mirrors.toLayout.add free parent laid, fun other => (kept other).1.trans
    (mirrors.versions other), fun other => (kept other).2.trans (mirrors.records other)⟩

/-- Making the directory of a table, also when that is refused half way, changes no records. -/
theorem makeDirectories (mirrors : Mirrors store.base files root held) (path : String) :
    Mirrors store.base (files.makeDirectories (store.commitsOf path)).2 root held := by
  unfold FileTree.makeDirectories
  split
  · exact mirrors
  · rw [mirrors.makeFrom_commitsOf]
    refine FileTree.makeFrom_induction (motive := fun tree => Mirrors store.base tree root held)
      mirrors (mirrors.wellFormed.node?_of_directoryAt mirrors.base) (fun _ => isName_of_mem) ?_
    intro grown front begins mirrored free parent
    exact mirrored.add_directory begins free parent

end Mirrors

/-! ## Appending -/

/-- What lets an append meet no error of the operating system. -/
structure Unhindered (store : DiskStore) (files : FileTree) (path : String) : Prop where
  making : (files.makeDirectories (store.commitsOf path)).1 = .ok ()
  commits : FilePath.check (store.commitsOf path ++ [Commit.name 0]) = .ok ()
  staging : FilePath.check (store.commitsOf path ++ [store.stagingName]) = .ok ()
  short : FilePath.checkName store.stagingName = .ok ()

namespace Mirrors

/-- An append that meets no error of the operating system is ready to go on. -/
theorem ready (mirrors : Mirrors store.base files root held)
    (unhindered : store.Unhindered files path)
    (few : (held (normalPath path)).length + 1 < Commit.versionLimit) :
    store.Ready files (files.makeDirectories (store.commitsOf path)).2 path
      (root ++ commitNames path) := by
  have mirrored := mirrors.makeDirectories path
  have making : files.makeDirectories (store.commitsOf path) =
      (.ok (), (files.makeDirectories (store.commitsOf path)).2) := Prod.ext unhindered.making rfl
  generalize (files.makeDirectories (store.commitsOf path)).2 = made at mirrored making
  obtain ⟨place, leads⟩ := exists_directoryAt making
  obtain rfl := mirrored.eq_of_directoryAt leads
  have found : files.node? (root ++ commitNames path) = some .directory →
      files.directoryAt (store.commitsOf path) = .ok (root ++ commitNames path) := by
    intro there
    rcases FileTree.eq_or_notFound_of_makeFrom (makeFrom_commitsOf making leads) with rfl | nowhere
    · exact leads
    · simp [mirrors.free_of_notFound nowhere] at there
  have unstaged : made.node? (root ++ commitNames path ++ [store.stagingName]) = none := by
    by_contra listed
    obtain ⟨node, there⟩ := Option.ne_none_iff_exists'.mp listed
    obtain ⟨version, _, same, -⟩ := mirrored.commit_of_node? there
    exact name_ne_stagingName version same.symm
  have bounded : ∀ version, Holds files (root ++ commitNames path) version →
      version + 1 < Commit.versionLimit := by
    rintro version ⟨fits, content, there⟩
    have inside := mem_versionsAt.mpr ⟨fits, _, there⟩
    rw [mirrors.versions, List.mem_range'_1] at inside
    omega
  exact ⟨mirrors.wellFormed, making, leads, found, Commit.check_name 0 unhindered.commits,
    unhindered.staging, unhindered.short, unstaged,
    fun _ _ _ => mirrored.readable_of_node?, bounded⟩

/-- The commit file of the next version adds its record. -/
theorem add_commit (mirrors : Mirrors store.base made root held)
    (ready : store.Ready files made path (root ++ commitNames path)) {version : Nat}
    (next : IsNext (Holds files (root ++ commitNames path)) version)
    (count : version = (held (normalPath path)).length + 1) (payload : Bytes) :
    Mirrors store.base
      (made.add (root ++ commitNames path ++ [Commit.name version]) (.file (.ok payload))) root
      (record path payload held) := by
  obtain ⟨fits, free⟩ := ready.free_of_isNext next
  have layout : Layout store.base
      (made.add (root ++ commitNames path ++ [Commit.name version]) (.file (.ok payload)))
      root := by
    have parent : made.node? (root ++ commitNames path ++ [Commit.name version]).dropLast =
        some .directory := by
      rw [List.dropLast_concat]
      exact mirrors.wellFormed.node?_of_directoryAt ready.leads
    rw [List.append_assoc] at free parent ⊢
    exact mirrors.toLayout.add free parent
      (laid_commitNames_append.mpr ⟨version, payload, rfl, rfl⟩)
  have grown : ∀ other,
      versionsAt
          (made.add (root ++ commitNames path ++ [Commit.name version]) (.file (.ok payload)))
          (root ++ commitNames other) =
        List.range' 1 (record path payload held (normalPath other)).length ∧
      recordsAt (made.add (root ++ commitNames path ++ [Commit.name version]) (.file (.ok payload)))
          (root ++ commitNames other) = record path payload held (normalPath other) := by
    intro other
    by_cases same : normalPath path = normalPath other
    · have names : commitNames other = commitNames path := by
        rw [commitNames, commitNames, normalPath_eq_iff.mp same]
      rw [names, versionsAt_add _ _ fits, ready.recordsAt_add next, mirrors.versions,
        mirrors.records, record, if_pos same, ← same, List.length_append, List.length_singleton,
        List.range'_concat, count, Nat.add_comm 1]
      simp
    · have elsewhere : ∀ number, root ++ commitNames path ++ [Commit.name version] ≠
          root ++ commitNames other ++ [Commit.name number] := by
        intro number equal
        have front := congrArg List.dropLast equal
        rw [List.dropLast_concat, List.dropLast_concat] at front
        exact same (commitNames_inj (List.append_cancel_left front))
      obtain ⟨versions, records⟩ := recordsAt_add_elsewhere free elsewhere (.file (.ok payload))
      rw [versions, records, mirrors.versions, mirrors.records, record, if_neg same,
        List.append_nil]
      exact ⟨rfl, rfl⟩
  exact ⟨layout, fun other => (grown other).1, fun other => (grown other).2⟩

/-- An append that meets no error of the operating system answers the next version and adds the
record. -/
theorem append (mirrors : Mirrors store.base files root held) (tries : 0 < store.attempts)
    (unhindered : store.Unhindered files path)
    (few : (held (normalPath path)).length + 1 < Commit.versionLimit) (payload : Bytes) :
    ∃ after, store.append files path payload = (.ok ((held (normalPath path)).length + 1),
        { store with staged := store.staged + 1 }, after) ∧
      Mirrors store.base after root (record path payload held) := by
  have ready := mirrors.ready unhindered few
  have mirrored := mirrors.makeDirectories path
  generalize (files.makeDirectories (store.commitsOf path)).2 = made at ready mirrored
  have first : (held (normalPath path)).length + 1 =
      firstFree (versionsAt made (root ++ commitNames path)).mergeSort := by
    rw [mirrored.versions, firstFree_range' few]
  have same : store.withAttempts store.attempts = store := by
    rw [withAttempts, Nat.max_eq_left tries]
  have appended := ready.append_eq store.attempts payload first
  rw [same] at appended
  exact ⟨_, appended, mirrored.add_commit ready (first ▸ ready.isNext) rfl payload⟩

end Mirrors

/-! ## What the operating system refuses -/

/-- If one path to a commit file is refused, all are. -/
theorem exists_check_name {directory : FilePath} {problem : FileError} {first : Nat}
    (refused : FilePath.check (directory ++ [Commit.name first]) = .error problem) (version : Nat) :
    ∃ problem, FilePath.check (directory ++ [Commit.name version]) = .error problem := by
  cases check : FilePath.check (directory ++ [Commit.name version]) with
  | error other => exact ⟨other, rfl⟩
  | ok =>
    rw [Commit.check_name version check first] at refused
    simp at refused

/-- Where the paths to commit files are refused, no version is claimed. -/
theorem exists_claim_eq_error {directory : FilePath} {problem : FileError} {tries : Nat}
    (some : 0 < tries) (refused : FilePath.check (directory ++ [Commit.name 0]) = .error problem)
    (payload : Bytes) (version : Nat) :
    ∃ problem, claim files directory payload tries version = .error (.file problem) := by
  obtain ⟨more, rfl⟩ := Nat.exists_eq_add_one.mpr some
  obtain ⟨other, refused⟩ := exists_check_name refused version
  refine ⟨other, ?_⟩
  rw [claim, FileTree.create_of_check refused]
  rcases FilePath.eq_of_check refused with rfl | rfl <;> rfl

/-- An append that has met no error of the operating system was not hindered. -/
theorem unhindered_of_append {payload : Bytes} (tries : 0 < store.attempts)
    (answered : ∀ cause, (store.append files path payload).1 ≠ .error (.inputOutput path cause)) :
    store.Unhindered files path := by
  rcases making : files.makeDirectories (store.commitsOf path) with ⟨problem | _, made⟩
  · exact absurd (by rw [append, making]) (answered problem.message)
  · obtain ⟨place, leads⟩ := exists_directoryAt making
    have appended : (store.append files path payload).1 =
        (store.commit made path (store.commitsOf path)
          (firstFree (versionsAt made place).mergeSort) payload).1 := by
      rw [append, making]
      dsimp only
      rw [versionsIn_eq leads]
    rw [appended] at answered
    unfold commit at answered
    extract_lets staging at answered
    split at answered
    · rename_i problem _
      exact absurd rfl (answered problem.message)
    · rename_i staged created
      obtain ⟨reachable, short⟩ := FileTree.short_of_create store.isName_stagingName
        (store.commitsOf_ne_root path) (FileTree.directoryAt_eq_ok.mp leads).2.2 created
      refine ⟨by rw [making], ?_, reachable, short⟩
      cases commits : FilePath.check (store.commitsOf path ++ [Commit.name 0]) with
      | error problem =>
        obtain ⟨cause, refused⟩ := @exists_claim_eq_error staged _ _ _ tries commits payload
          (firstFree (versionsAt made place).mergeSort)
        rw [refused] at answered
        exact absurd rfl (answered cause.message)
      | ok => rfl

/-! ## Reading and counting -/

/-- The directory of a table is there, or there is none. -/
def Found (store : DiskStore) (files : FileTree) (path : String) : Prop :=
  ∀ problem, files.directoryAt (store.commitsOf path) = .error problem → problem = .notFound

/-- No versions are listed where a directory cannot be looked at. -/
theorem versionsIn_of_error {directory : FilePath} {problem : FileError}
    (refused : files.directoryAt directory = .error problem) (other : problem ≠ .notFound) :
    versionsIn files directory = .error problem := by
  rw [versionsIn, FileTree.list, refused]
  cases problem <;> first | rfl | exact absurd rfl other

/-- A count that has met no error of the operating system has found the directory, or none. -/
theorem found_of_count
    (answered : ∀ cause, store.count files path ≠ .error (.inputOutput path cause)) :
    store.Found files path := by
  intro problem refused
  by_contra other
  exact answered problem.message (by rw [count, versionsIn_of_error refused other])

/-- So has a read. -/
theorem found_of_read
    (answered : ∀ cause, store.read files path ≠ .error (.inputOutput path cause)) :
    store.Found files path := by
  intro problem refused
  by_contra other
  exact answered problem.message (by rw [read, versionsIn_of_error refused other]; rfl)

namespace Mirrors

/-- Where there is no directory, there are no records. -/
theorem held_of_notFound (mirrors : Mirrors store.base files root held)
    (nowhere : files.directoryAt (store.commitsOf path) = .error .notFound) :
    held (normalPath path) = [] := by
  have free := mirrors.free_of_notFound
    (FileTree.follow_of_directoryAt_notFound (store.commitsOf_ne_root path) nowhere)
  have none : versionsAt files (root ++ commitNames path) = [] := by
    refine List.eq_nil_iff_forall_not_mem.mpr fun version inside => ?_
    obtain ⟨-, node, there⟩ := mem_versionsAt.mp inside
    rw [mirrors.wellFormed.node?_append free] at there
    simp at there
  rw [mirrors.versions] at none
  simpa using none

/-- A count that finds the directory, or none, answers the number of the records. -/
theorem count (mirrors : Mirrors store.base files root held) (found : store.Found files path) :
    store.count files path = .ok (held (normalPath path)).length := by
  cases leads : files.directoryAt (store.commitsOf path) with
  | error problem =>
    obtain rfl := found problem leads
    rw [mirrors.held_of_notFound leads]
    exact (read_of_notFound leads).2
  | ok place =>
    obtain rfl := mirrors.eq_of_directoryAt leads
    rw [count_eq leads, mirrors.records]

/-- A read that finds the directory, or none, and can reach the commit files answers the
records. -/
theorem read (mirrors : Mirrors store.base files root held) (found : store.Found files path)
    (reachable : held (normalPath path) ≠ [] →
      FilePath.check (store.commitsOf path ++ [Commit.name 0]) = .ok ()) :
    store.read files path = .ok (held (normalPath path)) := by
  cases leads : files.directoryAt (store.commitsOf path) with
  | error problem =>
    obtain rfl := found problem leads
    rw [mirrors.held_of_notFound leads]
    exact (read_of_notFound leads).1
  | ok place =>
    obtain rfl := mirrors.eq_of_directoryAt leads
    by_cases empty : held (normalPath path) = []
    · rw [DiskStore.read, versionsIn_eq leads, mirrors.versions, empty]
      simp
      rfl
    · rw [DiskStore.read_eq leads
        (fun version => names_commit (Commit.check_name 0 (reachable empty) version))
        (fun _ _ _ => mirrors.readable_of_node?), mirrors.records]

/-- A read of records that has met no error of the operating system has reached the commit files. -/
theorem reachable_of_read (mirrors : Mirrors store.base files root held)
    (answered : ∀ cause, store.read files path ≠ .error (.inputOutput path cause))
    (some : held (normalPath path) ≠ []) :
    FilePath.check (store.commitsOf path ++ [Commit.name 0]) = .ok () := by
  cases leads : files.directoryAt (store.commitsOf path) with
  | error problem =>
    obtain rfl := found_of_read answered problem leads
    exact absurd (mirrors.held_of_notFound leads) some
  | ok place =>
    obtain rfl := mirrors.eq_of_directoryAt leads
    cases commits : FilePath.check (store.commitsOf path ++ [Commit.name 0]) with
    | ok => rfl
    | error problem =>
      -- The first version is one that is there, and it cannot be read.
      obtain ⟨cause, refused⟩ := exists_check_name commits 1
      have first : files.read (store.commitsOf path ++ [Commit.name 1]) = .error cause := by
        rw [FileTree.read, FileTree.stat, refused]
      obtain ⟨before, count⟩ := Nat.exists_eq_add_one.mpr (List.length_pos_iff.mpr some)
      refine absurd ?_ (answered cause.message)
      rw [DiskStore.read, versionsIn_eq leads, mirrors.versions, mergeSort_range', count,
        List.range'_succ]
      change Except.mapError _ (List.mapM _ _) = _
      rw [List.mapM_cons, first]
      rfl

end Mirrors

/-! ## What is within the limits -/

/-- All paths that operations on a table take are within the limits, also those of so many staging
files that are asked for next. -/
structure WithinLimits (store : DiskStore) (path : String) (stagings : Nat) : Prop where
  names : ∀ name ∈ directoryNames path, FilePath.checkName name = .ok ()
  directory : (store.commitsOf path).check = .ok ()
  commits : FilePath.check (store.commitsOf path ++ [Commit.name 0]) = .ok ()
  staging : ∀ number < stagings, FilePath.check (store.commitsOf path ++
    [{ store with staged := store.staged + number }.stagingName]) = .ok ()
  short : ∀ number < stagings,
    FilePath.checkName { store with staged := store.staged + number }.stagingName = .ok ()

namespace WithinLimits

variable {stagings : Nat}

theorem commitNames_short (limits : store.WithinLimits path stagings) :
    ∀ name ∈ commitNames path, FilePath.checkName name = .ok () := by
  intro name inside
  rcases List.mem_append.mp inside with table | last
  · exact limits.names name table
  · rw [List.mem_singleton.mp last]
    decide

/-- Within the limits, an append is not hindered. -/
theorem unhindered (limits : store.WithinLimits path (stagings + 1))
    (mirrors : Mirrors store.base files root held) : store.Unhindered files path where
  making := by
    rw [FileTree.makeDirectories, limits.directory]
    dsimp only
    rw [mirrors.makeFrom_commitsOf]
    exact FileTree.makeFrom_ok (fun _ => isName_of_mem) limits.commitNames_short
      (mirrors.clear path)
  commits := limits.commits
  staging := limits.staging 0 (Nat.succ_pos _)
  short := limits.short 0 (Nat.succ_pos _)

/-- Within the limits, the directory of a table is found, or none. -/
theorem found (limits : store.WithinLimits path stagings)
    (mirrors : Mirrors store.base files root held) : store.Found files path := by
  intro problem refused
  rw [FileTree.directoryAt, FileTree.stat, limits.directory] at refused
  dsimp only at refused
  rw [if_neg (store.commitsOf_ne_root path), mirrors.follow_commitsOf] at refused
  rcases FileTree.follow_eq_or_notFound (fun _ => isName_of_mem) limits.commitNames_short
    (mirrors.clear path) with leads | nowhere
  · simp [leads] at refused
  · simpa [nowhere] using refused.symm

/-- Within the limits of one staging file more, a store that has asked for one at most is still
within the limits. -/
theorem after (limits : store.WithinLimits path (stagings + 1)) {asked : Nat} (few : asked ≤ 1) :
    { store with staged := store.staged + asked }.WithinLimits path stagings where
  names := limits.names
  directory := limits.directory
  commits := limits.commits
  staging number small := by
    have later := limits.staging (asked + number) (by omega)
    rwa [← Nat.add_assoc] at later
  short number small := by
    have later := limits.short (asked + number) (by omega)
    rwa [← Nat.add_assoc] at later

end WithinLimits

end DiskStore

end EventRelay
