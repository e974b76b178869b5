import EventRelay.Proofs.Listing
import EventRelay.Proofs.Store.Commit
import EventRelay.Store.Disk
import Mathlib

/-!
# Tables on disk only grow

The versions of a table are what its directory lists, whatever else it lists. The version behind the
largest of them is free, so the first attempt of an append succeeds: it links the record there and
takes the staging file away again. The new version sorts behind all others, so reading gives the
records that were there and then the new one.
-/

namespace EventRelay

open Text (Bytes)

namespace DiskStore

/-! ## The versions of a directory -/

/-- The versions that a directory holds, in the order in which they are listed. -/
def versionsAt (files : FileTree) (place : Place) : List Nat :=
  files.entries.filterMap fun entry => (place.nameIn? entry.1).bind Commit.version?

/-- The content of the file of a version. -/
def contentAt (files : FileTree) (place : Place) (version : Nat) : Bytes :=
  match files.node? (place ++ [Commit.name version]) with
  | some (.file (.ok content)) => content
  | _ => []

/-- The records of a directory in the order of their versions. -/
def recordsAt (files : FileTree) (place : Place) : List Bytes :=
  (versionsAt files place).mergeSort.map (contentAt files place)

/-- A directory holds the versions whose names stand in it. -/
theorem mem_versionsAt {files : FileTree} {place : Place} {version : Nat} :
    version ∈ versionsAt files place ↔
      version < Commit.versionLimit ∧ ∃ node,
        files.node? (place ++ [Commit.name version]) = some node := by
  simp only [versionsAt, List.mem_filterMap, Option.bind_eq_some_iff, Place.nameIn?_eq_some]
  constructor
  · rintro ⟨entry, listed, name, placed, stands⟩
    obtain ⟨rfl, fits⟩ := Commit.name_of_version? stands
    refine ⟨fits, Option.ne_none_iff_exists'.mp fun free => ?_⟩
    exact (FileTree.node?_eq_none_iff.mp free).2 entry listed placed
  · rintro ⟨fits, node, inside⟩
    by_contra unlisted
    have free : files.node? (place ++ [Commit.name version]) = none := by
      refine FileTree.node?_eq_none_iff.mpr ⟨?_, fun entry listed placed => ?_⟩
      · by_contra outside
        rcases Place.eq_of_isOutside_append_name (Bool.not_eq_false _ ▸ outside) with slash | back
        · exact Commit.name_ne (by decide) version slash
        · exact Commit.name_ne (by decide) version back
      · exact unlisted ⟨entry, listed, _, placed, Commit.version?_name fits⟩
    rw [free] at inside
    simp at inside

/-- The file of a version adds that version. -/
theorem versionsAt_add (files : FileTree) (place : Place) {version : Nat}
    (fits : version < Commit.versionLimit) (node : FileNode) :
    versionsAt (files.add (place ++ [Commit.name version]) node) place =
      versionsAt files place ++ [version] := by
  have named := Place.nameIn?_eq_some.mpr (rfl : place ++ [Commit.name version] = _)
  rw [versionsAt, FileTree.add, List.filterMap_append]
  simp only [List.filterMap_cons, named, Option.bind_some, Commit.version?_name fits,
    List.filterMap_nil]
  rfl

/-- What a directory shows are its versions and other names. -/
theorem versionsIn_eq {files : FileTree} {directory : FilePath} {place : Place}
    (leads : files.directoryAt directory = .ok place) :
    versionsIn files directory = .ok (versionsAt files place).mergeSort := by
  have unnamed : (files.unnamed place).filterMap
      (fun entry => Commit.version? (Text.Utf8.lossy entry.name)) = [] := by
    rw [List.filterMap_eq_nil_iff]
    exact fun entry inside =>
      Commit.version?_lossy_eq_none (FileTree.decode?_of_unnamed inside)
  rw [versionsIn, FileTree.list_eq_ok.mpr ⟨place, leads, rfl⟩]
  simp only [FileTree.contents, List.filterMap_append, unnamed, List.append_nil, FileTree.named,
    List.filterMap_filterMap, versionsAt, Option.bind_map, Function.comp_def,
    Text.Utf8.lossy_encode]

/-! ## The version behind all others -/

/-- A version is the next one after those of a kind: one more than the largest of them, or one if
there are none. -/
def IsNext (present : Nat → Prop) (version : Nat) : Prop :=
  ((∀ other, ¬ present other) ∧ version = 1) ∨
    ∃ last, present last ∧ (∀ other, present other → other ≤ last) ∧ version = last + 1

/-- The next version lies behind all others. -/
theorem IsNext.lt {present : Nat → Prop} {version other : Nat} (next : IsNext present version)
    (there : present other) : other < version := by
  rcases next with ⟨none, -⟩ | ⟨last, -, largest, rfl⟩
  · exact absurd there (none other)
  · exact Nat.lt_succ_of_le (largest other there)

/-- Sorting puts a largest number last. -/
theorem mergeSort_concat {numbers : List Nat} {largest : Nat}
    (bound : ∀ number ∈ numbers, number ≤ largest) :
    (numbers ++ [largest]).mergeSort = numbers.mergeSort ++ [largest] := by
  have sorted : (numbers.mergeSort ++ [largest]).Pairwise (· ≤ ·) := by
    rw [List.pairwise_append]
    refine ⟨List.pairwise_mergeSort' (· ≤ ·) numbers, List.pairwise_singleton _ _, ?_⟩
    intro number inside other last
    rw [List.mem_singleton.mp last]
    exact bound number (List.mem_mergeSort.mp inside)
  have same : (numbers ++ [largest]).Perm (numbers.mergeSort ++ [largest]) :=
    (List.mergeSort_perm numbers _).symm.append_right _
  exact ((List.mergeSort_perm _ _).trans same).eq_of_pairwise
    (fun _ _ _ _ => Nat.le_antisymm) (List.pairwise_mergeSort' (· ≤ ·) _) sorted

/-- The first version that an append tries is the next one, unless the largest is reached. -/
theorem isNext_firstFree {versions : List Nat}
    (bounded : ∀ version ∈ versions, version + 1 < Commit.versionLimit) :
    IsNext (· ∈ versions) (firstFree versions.mergeSort) := by
  have ordered := List.pairwise_mergeSort' (· ≤ ·) versions
  have inside : ∀ version, version ∈ versions.mergeSort ↔ version ∈ versions :=
    fun _ => List.mem_mergeSort
  unfold firstFree
  generalize versions.mergeSort = sorted at ordered inside
  cases ending : sorted.getLast? with
  | none =>
    rw [List.getLast?_eq_none_iff.mp ending] at inside
    exact Or.inl ⟨fun other also => by simp [← inside] at also, rfl⟩
  | some last =>
    obtain ⟨front, rfl⟩ := List.getLast?_eq_some_iff.mp ending
    have there : last ∈ versions := (inside last).mp (by simp)
    refine Or.inr ⟨last, there, fun other also => ?_, Commit.next_eq (bounded last there)⟩
    rcases List.mem_append.mp ((inside other).mpr also) with before | here
    · exact (List.pairwise_append.mp ordered).2.2 other before last (List.mem_singleton_self last)
    · exact (List.mem_singleton.mp here).le

/-! ## Reading and counting -/

/-- Reading all versions succeeds when each of them is read. -/
theorem mapM_ok {versions : List Nat} {fetch : Nat → Except FileError Bytes}
    {content : Nat → Bytes}
    (fetched : ∀ version ∈ versions, fetch version = .ok (content version)) :
    versions.mapM fetch = .ok (versions.map content) := by
  induction versions with
  | nil => rfl
  | cons version rest inductionHypothesis =>
    rw [List.mapM_cons, fetched version List.mem_cons_self,
      inductionHypothesis fun other inside => fetched other (List.mem_cons_of_mem _ inside)]
    rfl

variable {store : DiskStore} {files made : FileTree} {path : String} {place : Place}

/-- The number of records that are counted is the number of those that are listed. -/
theorem count_eq (leads : files.directoryAt (store.commitsOf path) = .ok place) :
    store.count files path = .ok (recordsAt files place).length := by
  rw [count, versionsIn_eq leads]
  simp [recordsAt]

/-- The files of all versions are read where all of them are files. -/
theorem read_eq (leads : files.directoryAt (store.commitsOf path) = .ok place)
    (names : ∀ version, FileTree.Names (store.commitsOf path) (Commit.name version))
    (regular : ∀ version < Commit.versionLimit, ∀ node,
      files.node? (place ++ [Commit.name version]) = some node →
        ∃ content, node = .file (.ok content)) :
    store.read files path = .ok (recordsAt files place) := by
  have fetched : ∀ version ∈ (versionsAt files place).mergeSort,
      files.read (store.commitsOf path ++ [Commit.name version]) =
        .ok (contentAt files place version) := by
    intro version inside
    obtain ⟨fits, node, there⟩ := mem_versionsAt.mp (List.mem_mergeSort.mp inside)
    obtain ⟨content, rfl⟩ := regular version fits node there
    rw [(names version).read (FileTree.directoryAt_eq_ok.mp leads).2.2 there, contentAt, there]
  rw [read, versionsIn_eq leads]
  change Except.mapError _ ((versionsAt files place).mergeSort.mapM _) = _
  rw [mapM_ok fetched]
  rfl

/-- Where there is no directory, there are no records. -/
theorem read_of_notFound (nowhere : files.directoryAt (store.commitsOf path) = .error .notFound) :
    store.read files path = .ok [] ∧ store.count files path = .ok 0 := by
  have none : versionsIn files (store.commitsOf path) = .ok [] := by
    rw [versionsIn, FileTree.list, nowhere]
    rfl
  rw [read, count, none]
  exact ⟨rfl, rfl⟩

/-! ## Appending -/

/-- The name of a staging file begins with a dot. -/
theorem toList_stagingName (store : DiskStore) :
    ∃ rest, store.stagingName.toList = ".staging-".toList ++ rest :=
  ⟨_, by rw [stagingName, String.append_assoc, String.append_assoc, String.toList_append]⟩

/-- The name of the first staging file. -/
theorem stagingName_ofBase (base : FilePath) : (ofBase base).stagingName = ".staging-0-0" := by
  rw [stagingName, ofBase, Decimal.text, Decimal.digits_zero]
  decide

/-- The name of a staging file is no short one. -/
theorem stagingName_ne {text : String} (short : text.toList.length < 9) :
    store.stagingName ≠ text := by
  rintro rfl
  obtain ⟨rest, long⟩ := store.toList_stagingName
  have count : ".staging-".toList.length = 9 := by decide
  rw [long, List.length_append] at short
  omega

/-- A staging file stands in the directory of its table. -/
theorem isName_stagingName (store : DiskStore) : FilePath.IsName store.stagingName := by
  have named : store.stagingName ≠ "" := stagingName_ne (by decide)
  have moved : store.stagingName ≠ "." := stagingName_ne (by decide)
  exact ⟨by simp [FilePath.staysPut, named, moved], stagingName_ne (by decide)⟩

/-- No commit file has the name of a staging file. -/
theorem name_ne_stagingName (version : Nat) : Commit.name version ≠ store.stagingName := by
  refine Commit.name_ne (fun digit same => ?_) version
  obtain ⟨rest, long⟩ := store.toList_stagingName
  have dot : '.' = digit.char := by simpa [long] using same
  clear same long
  revert digit
  decide

/-- The commit file of a version stands in a directory. -/
def Holds (files : FileTree) (place : Place) (version : Nat) : Prop :=
  version < Commit.versionLimit ∧
    ∃ content, files.node? (place ++ [Commit.name version]) = some (.file content)

/-- A record is linked to a free version at the first attempt, and its staging file is removed. -/
theorem commit_eq {directory : FilePath} {version : Nat} (wellFormed : made.WellFormed)
    (leads : made.follow directory.start directory = .ok (place, .directory))
    (staging : FileTree.Names directory store.stagingName)
    (commit : FileTree.Names directory (Commit.name version))
    (unstaged : made.node? (place ++ [store.stagingName]) = none)
    (free : made.node? (place ++ [Commit.name version]) = none) (tries : 0 < store.attempts)
    (path : String) (payload : Bytes) :
    store.commit made path directory version payload =
      (.ok version, made.add (place ++ [Commit.name version]) (.file (.ok payload))) := by
  have apart : place ++ [Commit.name version] ≠ place ++ [store.stagingName] := by
    simpa using name_ne_stagingName version
  -- The tree with the staging file, and the tree with the link beside it.
  set staged := made.add (place ++ [store.stagingName]) (.file (.ok payload)) with staged_eq
  have stagedLeads := FileTree.follow_of_within
    (FileTree.within_add unstaged (.file (.ok payload))) leads
  have stillFree : staged.node? (place ++ [Commit.name version]) = none := by
    rw [staged_eq, FileTree.node?_add unstaged, if_neg apart, free]
  set linked := staged.add (place ++ [Commit.name version]) (.file (.ok payload)) with linked_eq
  have linkedLeads := FileTree.follow_of_within
    (FileTree.within_add stillFree (.file (.ok payload))) stagedLeads
  have stillStaged : linked.node? (place ++ [store.stagingName]) = some (.file (.ok payload)) := by
    rw [linked_eq, FileTree.node?_add stillFree, if_neg apart.symm, staged_eq,
      FileTree.node?_add unstaged, if_pos rfl]
  have claimed : claim staged directory payload store.attempts version = .ok (version, linked) := by
    obtain ⟨more, count⟩ := Nat.exists_eq_add_one.mpr tries
    rw [count, claim, commit.create stagedLeads stillFree]
  have removed : linked.remove (directory ++ [store.stagingName]) =
      made.add (place ++ [Commit.name version]) (.file (.ok payload)) := by
    have elsewhere : ¬ place ++ [store.stagingName] <+: place ++ [Commit.name version] :=
      fun below => apart (below.eq_of_length (by simp)).symm
    rw [staging.remove linkedLeads stillStaged,
      FileTree.removeAt_add_of_not_prefix _ elsewhere, FileTree.removeAt_add_self,
      wellFormed.removeAt_free unstaged]
  rw [DiskStore.commit, staging.create leads unstaged]
  dsimp only
  rw [claimed]
  dsimp only
  rw [removed]

/-- What lets an append to a table meet no error of the operating system: the directory of the table
stands at a place and has become what `made` holds, and neither a length nor a leftover is in the
way. -/
structure Ready (store : DiskStore) (files made : FileTree) (path : String) (place : Place) :
    Prop where
  wellFormed : files.WellFormed
  /-- The directory of the table is there or is made. -/
  making : files.makeDirectories (store.commitsOf path) = (.ok (), made)
  /-- The path of the table then leads to the place of its commit files. -/
  leads : made.directoryAt (store.commitsOf path) = .ok place
  /-- If a directory is there, the path leads to it before anything is made. A path out of a missing
  directory would be refused until that is made, see `found_of_forward`. -/
  found : files.node? place = some .directory →
    files.directoryAt (store.commitsOf path) = .ok place
  /-- No path to a commit file is too long. -/
  commits : ∀ version, FilePath.check (store.commitsOf path ++ [Commit.name version]) = .ok ()
  /-- Neither is the path to the staging file, and neither is its name. -/
  staging : FilePath.check (store.commitsOf path ++ [store.stagingName]) = .ok ()
  short : FilePath.checkName store.stagingName = .ok ()
  /-- No staging file of that name is left over. -/
  unstaged : made.node? (place ++ [store.stagingName]) = none
  /-- What is named as a commit file can be read as a file. -/
  regular : ∀ version < Commit.versionLimit, ∀ node,
    made.node? (place ++ [Commit.name version]) = some node → ∃ content, node = .file (.ok content)
  /-- No version is the largest one that there can be. -/
  bounded : ∀ version, Holds files place version → version + 1 < Commit.versionLimit

/-! ## What is ready -/

/-- The name of a directory of a table never leads back. -/
theorem directoryName_ne_back (segment : String) : directoryName segment ≠ ".." := by
  intro back
  have chars := congrArg String.toList back
  unfold directoryName at chars
  extract_lets cleaned at chars
  split at chars
  · simp at chars
  · rename_i plain
    rw [String.toList_ofList] at chars
    simp [chars] at plain

/-- The path to the directory of a table goes back only where the base directory does. -/
theorem forward_commitsOf (forward : ".." ∉ store.base) (path : String) :
    ".." ∉ store.commitsOf path := by
  have names : ".." ∉ directoryNames path ++ [commitsName] := by
    rw [List.mem_append, not_or, directoryNames, List.mem_map]
    refine ⟨?_, by decide⟩
    rintro ⟨segment, -, back⟩
    exact directoryName_ne_back segment back
  have base : ".." ∉ store.base.dropLast := fun inside => forward (List.dropLast_subset _ inside)
  rw [commitsOf, FilePath.join]
  split
  · rw [List.mem_append, not_or]
    exact ⟨base, names⟩
  · rw [List.mem_append, not_or]
    exact ⟨forward, names⟩

/-- Making the directory of a table follows its path. -/
theorem makeFrom_commitsOf (making : files.makeDirectories (store.commitsOf path) = (.ok (), made))
    (leads : made.directoryAt (store.commitsOf path) = .ok place) :
    files.makeFrom (store.commitsOf path).start (store.commitsOf path) = (.ok (), made) := by
  rwa [FileTree.makeDirectories, (FileTree.directoryAt_eq_ok.mp leads).1] at making

/-- The path to the directory of a table ends in a name. -/
theorem commitsOf_ne_root (store : DiskStore) (path : String) : store.commitsOf path ≠ [""] := by
  have named : commitsName ∈ store.commitsOf path := by
    rw [commitsOf, FilePath.join]
    split <;> simp
  intro root
  rw [root, List.mem_singleton] at named
  exact absurd named (by decide)

/-- The directory of a table stands at a place once it is made. -/
theorem exists_directoryAt
    (making : files.makeDirectories (store.commitsOf path) = (.ok (), made)) :
    ∃ place, made.directoryAt (store.commitsOf path) = .ok place := by
  unfold FileTree.makeDirectories at making
  split at making
  · simp at making
  · rename_i fits
    obtain ⟨place, leads⟩ := FileTree.exists_follow_of_makeFrom making
    exact ⟨place, FileTree.directoryAt_eq_ok.mpr ⟨fits, store.commitsOf_ne_root path, leads⟩⟩

/-- Below a base directory whose path never goes back, the directory of a table is found if it is
there. -/
theorem found_of_forward (forward : ".." ∉ store.base) (wellFormed : files.WellFormed)
    (making : files.makeDirectories (store.commitsOf path) = (.ok (), made))
    (leads : made.directoryAt (store.commitsOf path) = .ok place)
    (there : files.node? place = some .directory) :
    files.directoryAt (store.commitsOf path) = .ok place := by
  rcases FileTree.eq_or_free_of_makeFrom wellFormed (forward_commitsOf forward path)
    (makeFrom_commitsOf making leads) (FileTree.directoryAt_eq_ok.mp leads).2.2 with rfl | free
  · exact leads
  · simp [free] at there

/-- The path to a commit file leads into the directory of the table. -/
theorem names_commit {version : Nat}
    (reachable : FilePath.check (store.commitsOf path ++ [Commit.name version]) = .ok ()) :
    FileTree.Names (store.commitsOf path) (Commit.name version) where
  notRoot := store.commitsOf_ne_root path
  moves := by
    have named : Commit.name version ≠ "" := Commit.name_ne (by decide) version
    have moved : Commit.name version ≠ "." := Commit.name_ne (by decide) version
    simp [FilePath.staysPut, named, moved]
  forward := Commit.name_ne (by decide) version
  short := by
    rw [FilePath.checkName, Commit.length_encode_name]
    rfl
  reachable := reachable

namespace Ready

/-- The path to a commit file leads into the directory of the table. -/
theorem commit_names (ready : store.Ready files made path place) (version : Nat) :
    FileTree.Names (store.commitsOf path) (Commit.name version) :=
  names_commit (ready.commits version)

/-- The path to the staging file leads into the directory of the table. -/
theorem staging_names (ready : store.Ready files made path place) :
    FileTree.Names (store.commitsOf path) store.stagingName where
  notRoot := (FileTree.directoryAt_eq_ok.mp ready.leads).2.1
  moves := store.isName_stagingName.1
  forward := store.isName_stagingName.2
  short := ready.short
  reachable := ready.staging

theorem makeFrom_eq (ready : store.Ready files made path place) :
    files.makeFrom (store.commitsOf path).start (store.commitsOf path) = (.ok (), made) :=
  makeFrom_commitsOf ready.making ready.leads

/-- Making the directory of a table makes directories only. -/
theorem gains (ready : store.Ready files made path place) : files.GainsDirectories made := by
  have gains := FileTree.gainsDirectories_makeFrom files (store.commitsOf path).start
    (store.commitsOf path)
  rwa [ready.makeFrom_eq] at gains

theorem made_wellFormed (ready : store.Ready files made path place) : made.WellFormed := by
  have wellFormed := ready.wellFormed.makeFrom (files.node?_start (store.commitsOf path))
    (store.commitsOf path)
  rwa [ready.makeFrom_eq] at wellFormed

/-- The versions that are listed are those of the commit files. -/
theorem mem_versionsAt_iff (ready : store.Ready files made path place) {version : Nat} :
    version ∈ versionsAt made place ↔ Holds files place version := by
  rw [mem_versionsAt, Holds, and_congr_right_iff]
  intro fits
  constructor
  · rintro ⟨node, inside⟩
    obtain ⟨content, rfl⟩ := ready.regular version fits node inside
    exact ⟨_, ready.gains.files _ _ inside⟩
  · rintro ⟨content, inside⟩
    exact ⟨_, ready.gains.within _ _ inside⟩

/-- The directory of a table is there, or it is not found and there is no commit file. -/
theorem eq_or_empty (ready : store.Ready files made path place) :
    made = files ∨
      files.directoryAt (store.commitsOf path) = .error .notFound ∧
        versionsAt made place = [] := by
  rcases FileTree.eq_or_notFound_of_makeFrom ready.makeFrom_eq with same | nowhere
  · exact Or.inl same
  · have missing : files.directoryAt (store.commitsOf path) = .error .notFound := by
      obtain ⟨fits, notRoot, -⟩ := FileTree.directoryAt_eq_ok.mp ready.leads
      rw [FileTree.directoryAt, FileTree.stat, fits]
      simp [notRoot, nowhere]
    refine Or.inr ⟨missing, List.eq_nil_iff_forall_not_mem.mpr fun version inside => ?_⟩
    obtain ⟨-, content, there⟩ := ready.mem_versionsAt_iff.mp inside
    have directory := ready.wellFormed.directory_of_file there
    rw [ready.found directory] at missing
    simp at missing

/-- The version that is tried first is the next one. -/
theorem isNext (ready : store.Ready files made path place) :
    IsNext (Holds files place) (firstFree (versionsAt made place).mergeSort) := by
  have bounded : ∀ version ∈ versionsAt made place, version + 1 < Commit.versionLimit :=
    fun version inside => ready.bounded version (ready.mem_versionsAt_iff.mp inside)
  simpa only [ready.mem_versionsAt_iff] using isNext_firstFree bounded

/-- A version behind all others is free. -/
theorem free_of_isNext (ready : store.Ready files made path place) {version : Nat}
    (next : IsNext (Holds files place) version) :
    version < Commit.versionLimit ∧ made.node? (place ++ [Commit.name version]) = none := by
  have fits : version < Commit.versionLimit := by
    rcases next with ⟨-, rfl⟩ | ⟨last, held, -, rfl⟩
    · decide
    · exact ready.bounded last held
  refine ⟨fits, ?_⟩
  by_contra taken
  have held : Holds files place version := ready.mem_versionsAt_iff.mp
    (mem_versionsAt.mpr ⟨fits, Option.ne_none_iff_exists'.mp taken⟩)
  exact Nat.lt_irrefl version (next.lt held)

/-- An append links the record to the next version and leaves nothing else behind. -/
theorem append_eq (ready : store.Ready files made path place) (attempts : Nat) (payload : Bytes)
    {version : Nat} (first : version = firstFree (versionsAt made place).mergeSort) :
    (store.withAttempts attempts).append files path payload =
      (.ok version, { store.withAttempts attempts with staged := store.staged + 1 },
        made.add (place ++ [Commit.name version]) (.file (.ok payload))) := by
  have leads := (FileTree.directoryAt_eq_ok.mp ready.leads).2.2
  obtain ⟨fits, free⟩ := ready.free_of_isNext (first ▸ ready.isNext)
  have committed := @commit_eq (store.withAttempts attempts) made place (store.commitsOf path)
    version ready.made_wellFormed leads ready.staging_names (ready.commit_names version)
    ready.unstaged free (Nat.le_max_right attempts 1) path payload
  have same : (store.withAttempts attempts).commitsOf path = store.commitsOf path := rfl
  rw [append]
  dsimp only
  rw [same, ready.making]
  dsimp only
  rw [versionsIn_eq ready.leads]
  dsimp only
  rw [← first, committed]
  rfl

/-- Reading and counting give the records that are listed once the directory is made. -/
theorem read_eq (ready : store.Ready files made path place) :
    store.read files path = .ok (recordsAt made place) ∧
      store.count files path = .ok (recordsAt made place).length := by
  rcases ready.eq_or_empty with rfl | ⟨nowhere, empty⟩
  · exact ⟨DiskStore.read_eq ready.leads ready.commit_names ready.regular,
      count_eq ready.leads⟩
  · have none : recordsAt made place = [] := by
      rw [recordsAt, empty]
      simp
    rw [none]
    exact read_of_notFound nowhere

/-- The record of the next version is listed behind all others. -/
theorem recordsAt_add (ready : store.Ready files made path place) {version : Nat}
    (next : IsNext (Holds files place) version) (payload : Bytes) :
    recordsAt (made.add (place ++ [Commit.name version]) (.file (.ok payload))) place =
      recordsAt made place ++ [payload] := by
  obtain ⟨fits, free⟩ := ready.free_of_isNext next
  have below : ∀ other ∈ versionsAt made place, other < version := fun other inside =>
    next.lt (ready.mem_versionsAt_iff.mp inside)
  have kept : ∀ other ∈ (versionsAt made place).mergeSort,
      contentAt (made.add (place ++ [Commit.name version]) (.file (.ok payload))) place other =
        contentAt made place other := by
    intro other inside
    obtain ⟨-, node, there⟩ := mem_versionsAt.mp (List.mem_mergeSort.mp inside)
    rw [contentAt, contentAt, FileTree.within_add free _ _ _ there, there]
  have added : contentAt (made.add (place ++ [Commit.name version]) (.file (.ok payload))) place
      version = payload := by
    rw [contentAt, FileTree.node?_add free, if_pos rfl]
  rw [recordsAt, versionsAt_add made place fits, mergeSort_concat fun other inside =>
    (below other inside).le, List.map_append, List.map_congr_left kept, List.map_singleton, added]
  rfl

end Ready

/-- Whatever versions and other files the directory of a table holds, and however many versions an
append may try, it answers the version behind all others and adds the commit file of this version
with just the record in it. No file is changed or removed, no staging file is left, and reading and
counting go on from what they gave before. -/
theorem append_extends (ready : store.Ready files made path place) (attempts : Nat)
    (payload : Bytes) :
    ∃ version later after records,
      (store.withAttempts attempts).append files path payload = (.ok version, later, after) ∧
      IsNext (Holds files place) version ∧
      files.GainsFile after (place ++ [Commit.name version]) payload ∧
      after.node? (place ++ [store.stagingName]) = none ∧
      store.read files path = .ok records ∧
      store.count files path = .ok records.length ∧
      later.read after path = .ok (records ++ [payload]) ∧
      later.count after path = .ok (records.length + 1) := by
  have next := ready.isNext
  have appended := ready.append_eq attempts payload rfl
  set version := firstFree (versionsAt made place).mergeSort
  obtain ⟨fits, free⟩ := ready.free_of_isNext next
  have leads : (made.add (place ++ [Commit.name version]) (.file (.ok payload))).directoryAt
      (store.commitsOf path) = .ok place := by
    obtain ⟨short, notRoot, leads⟩ := FileTree.directoryAt_eq_ok.mp ready.leads
    exact FileTree.directoryAt_eq_ok.mpr
      ⟨short, notRoot, FileTree.follow_of_within (FileTree.within_add free _) leads⟩
  have regular : ∀ other < Commit.versionLimit, ∀ node,
      (made.add (place ++ [Commit.name version]) (.file (.ok payload))).node?
        (place ++ [Commit.name other]) = some node → ∃ content, node = .file (.ok content) := by
    intro other small node there
    rw [FileTree.node?_add free] at there
    split at there
    · exact ⟨payload, (Option.some.inj there).symm⟩
    · exact ready.regular other small node there
  have unstaged : (made.add (place ++ [Commit.name version]) (.file (.ok payload))).node?
      (place ++ [store.stagingName]) = none := by
    have apart : place ++ [store.stagingName] ≠ place ++ [Commit.name version] := by
      simpa using (name_ne_stagingName version).symm
    rw [FileTree.node?_add free, if_neg apart, ready.unstaged]
  have read := DiskStore.read_eq leads ready.commit_names regular
  have counted := count_eq leads
  rw [ready.recordsAt_add next payload] at read counted
  rw [List.length_append, List.length_singleton] at counted
  exact ⟨version, _, _, recordsAt made place, appended, next, ready.gains.gainsFile free payload,
    unstaged, ready.read_eq.1, ready.read_eq.2, read, counted⟩

/-- A table with a gap between its versions and a file that is no commit file. -/
def sparseTable : FileTree where
  entries :=
    [(["data"], .directory), (["data", "orders"], .directory),
      (["data", "orders", "_commits"], .directory),
      (["data", "orders", "_commits", Commit.name 5], .file (.ok [53])),
      (["data", "orders", "_commits", "notes.txt"], .file (.ok [])),
      (["data", "orders", "_commits", Commit.name 2], .file (.ok [50]))]

/-- The place of the commit files of the table. -/
def sparsePlace : Place :=
  ["data", "orders", "_commits"]

theorem version_of_sparseTable {version : Nat} (fits : version < Commit.versionLimit)
    {node : FileNode}
    (there : sparseTable.node? (sparsePlace ++ [Commit.name version]) = some node) :
    version = 2 ∨ version = 5 := by
  have versions : versionsAt sparseTable sparsePlace = [5, 2] := by decide
  have listed := mem_versionsAt.mpr ⟨fits, node, there⟩
  rw [versions] at listed
  simpa [or_comm] using listed

theorem ready_sparseTable :
    (DiskStore.ofBase ["data"]).Ready sparseTable sparseTable "orders" sparsePlace where
  wellFormed := by decide
  making := by decide
  leads := by decide
  found := @found_of_forward (ofBase ["data"]) sparseTable sparseTable "orders" sparsePlace
    (by decide) (by decide) (by decide) (by decide)
  commits := Commit.check_name 0 (by decide)
  staging := by rw [stagingName_ofBase]; decide
  short := by rw [stagingName_ofBase]; decide
  unstaged := by rw [stagingName_ofBase]; decide
  regular version fits node there := by
    rcases version_of_sparseTable fits there with rfl | rfl
    · exact ⟨[50], (Option.some.inj (there.symm.trans (by decide)))⟩
    · exact ⟨[53], (Option.some.inj (there.symm.trans (by decide)))⟩
  bounded version held := by
    obtain ⟨fits, content, there⟩ := held
    rcases version_of_sparseTable fits there with rfl | rfl <;> decide

theorem append_extends_sparseTable :
    ∃ later after records,
      ((DiskStore.ofBase ["data"]).withAttempts 0).append sparseTable "orders" [54] =
          (.ok 6, later, after) ∧
        later.read after "orders" = .ok (records ++ [[54]]) := by
  obtain ⟨version, later, after, records, appended, next, -, -, -, -, read, -⟩ :=
    append_extends ready_sparseTable 0 [54]
  have five : Holds sparseTable sparsePlace 5 := ⟨by decide, .ok [53], by decide⟩
  have six : version = 6 := by
    rcases next with ⟨none, -⟩ | ⟨last, ⟨fits, content, there⟩, largest, rfl⟩
    · exact absurd five (none 5)
    · have bound := largest 5 five
      rcases version_of_sparseTable fits there with rfl | rfl
      · omega
      · rfl
  exact ⟨later, after, records, six ▸ appended, read⟩

end DiskStore

end EventRelay
