import EventRelay.Proofs.FilePath
import EventRelay.Proofs.Store.Disk
import EventRelay.Proofs.Text.Split
import Mathlib

/-!
# Where tables stand on disk

Every segment of a table's path becomes the name of one directory, never a name that leads elsewhere
and never that of a directory of commit files. So a path and its normal form stand for the same
table and different normal forms for different tables. The directory of one table may hold those of
others, but below the base directory nothing stands other than directories of tables, in them
directories of commit files, and in these commit files.
-/

namespace EventRelay

open Text (Bytes)

namespace DiskStore

/-! ## Directory names -/

/-- A name that a segment of a table path can become. -/
structure IsTableName (name : String) : Prop where
  plain : ∀ c ∈ name.toList, isPlain c = true
  moves : name.toList.all (· = '.') = false
  unreserved : name ≠ commitsName

/-- A name of plain characters that would lead elsewhere is changed to one that does not. -/
theorem isTableName_changed {cleaned : List Char} (plain : ∀ c ∈ cleaned, isPlain c = true)
    (special : cleaned.all (· = '.') = true ∨ cleaned = commitsName.toList) :
    IsTableName (String.ofList (('_' :: cleaned).map fun c => if c = '.' then '_' else c)) := by
  refine ⟨fun c inside => ?_, by simp, fun same => ?_⟩
  · rw [String.toList_ofList, List.mem_map] at inside
    obtain ⟨original, among, rfl⟩ := inside
    split
    · decide
    · rcases List.mem_cons.mp among with rfl | among
      · decide
      · exact plain original among
  · have chars := congrArg String.toList same
    rw [String.toList_ofList] at chars
    rcases special with dots | reserved
    · -- Dots have become underscores, and not all of the reserved name is underscores.
      have second : 'c' ∈ ('_' :: cleaned).map fun c => if c = '.' then '_' else c := by
        rw [chars]
        decide
      obtain ⟨original, among, turned⟩ := List.mem_map.mp second
      rcases List.mem_cons.mp among with rfl | among
      · exact absurd turned (by decide)
      · have dot : original = '.' := by simpa using List.all_eq_true.mp dots original among
        rw [dot] at turned
        exact absurd turned (by decide)
    · rw [reserved] at chars
      exact absurd chars (by decide)

/-- Every segment becomes a name that can be one. -/
theorem isTableName_directoryName (segment : String) : IsTableName (directoryName segment) := by
  have plain : ∀ c ∈ segment.toList.map fun c => if isPlain c then c else '_',
      isPlain c = true := by
    intro c inside
    obtain ⟨original, -, rfl⟩ := List.mem_map.mp inside
    split
    · assumption
    · decide
  unfold directoryName
  extract_lets cleaned
  change ∀ c ∈ cleaned, isPlain c = true at plain
  split
  · rename_i special
    rw [Bool.or_eq_true, decide_eq_true_eq] at special
    exact isTableName_changed plain special
  · rename_i usual
    rw [Bool.or_eq_true, not_or, decide_eq_true_eq] at usual
    refine ⟨by rwa [String.toList_ofList], ?_, fun same => usual.2 ?_⟩
    · rw [String.toList_ofList]
      exact Bool.not_eq_true _ ▸ usual.1
    · rw [← same, String.toList_ofList]

namespace IsTableName

variable {name : String}

/-- A name that can be one stays as it is. -/
theorem directoryName_eq (table : IsTableName name) : directoryName name = name := by
  have kept : (name.toList.map fun c => if isPlain c then c else '_') = name.toList := by
    conv_rhs => rw [← List.map_id name.toList]
    exact List.map_congr_left fun c inside => if_pos (table.plain c inside)
  have unreserved : name.toList ≠ commitsName.toList :=
    fun same => table.unreserved (String.toList_injective same)
  rw [directoryName, kept]
  simp [table.moves, unreserved]

/-- A name without a slash in it. -/
theorem slashless (table : IsTableName name) : '/' ∉ name.toList := fun inside =>
  absurd (table.plain '/' inside) (by decide)

/-- A name that stands for something in the directory before it. -/
theorem isName (table : IsTableName name) : FilePath.IsName name := by
  have notDots : ∀ text : String, text.toList.all (· = '.') = true → name ≠ text := by
    rintro text dots rfl
    simp [table.moves] at dots
  simp [FilePath.IsName, FilePath.staysPut, notDots "" (by decide), notDots "." (by decide),
    notDots ".." (by decide)]

end IsTableName

theorem isTableName_of_mem {path name : String} (inside : name ∈ directoryNames path) :
    IsTableName name := by
  obtain ⟨segment, -, rfl⟩ := List.mem_map.mp inside
  exact isTableName_directoryName segment

/-! ## Normal forms -/

/-- The normal form of a table path: its directory names with slashes between them. -/
def normalPath (path : String) : String :=
  Text.join '/' (directoryNames path)

/-- A path and its normal form stand for the same table. -/
theorem directoryNames_normalPath (path : String) :
    directoryNames (normalPath path) = directoryNames path := by
  rw [normalPath]
  have tables := @isTableName_of_mem path
  generalize directoryNames path = names at tables
  by_cases none : names = []
  · subst none
    decide
  · have filled : (names.filter fun name => !name.isEmpty) = names := by
      rw [List.filter_eq_self]
      intro name inside
      simpa using (tables inside).isName.ne_empty
    rw [directoryNames, Text.split_join (fun name inside => (tables inside).slashless) none, filled]
    conv_rhs => rw [← List.map_id names]
    exact List.map_congr_left fun name inside => (tables inside).directoryName_eq

/-- Different normal forms stand for different tables. -/
theorem normalPath_eq_iff {first second : String} :
    normalPath first = normalPath second ↔ directoryNames first = directoryNames second := by
  constructor
  · intro same
    rw [← directoryNames_normalPath first, same, directoryNames_normalPath]
  · intro same
    rw [normalPath, same, normalPath]

/-! ## Below the base directory -/

/-- The names that lead from the base directory to the commit files of a table. -/
def commitNames (path : String) : List String :=
  directoryNames path ++ [commitsName]

theorem commitNames_ne_nil (path : String) : commitNames path ≠ [] := by
  simp [commitNames]

theorem commitNames_inj {first second : String} (same : commitNames first = commitNames second) :
    normalPath first = normalPath second :=
  normalPath_eq_iff.mpr (List.append_cancel_right same)

theorem isName_of_mem {path name : String} (inside : name ∈ commitNames path) :
    FilePath.IsName name := by
  rcases List.mem_append.mp inside with table | last
  · exact (isTableName_of_mem table).isName
  · rw [List.mem_singleton.mp last]
    exact ⟨by decide, by decide⟩

/-- What may stand under a list of names below the base directory. -/
def Laid : List String → FileNode → Prop
  | [], node => node = .directory
  | name :: rest, node =>
    if name = commitsName then
      rest = [] ∧ node = .directory ∨
        ∃ version content, rest = [Commit.name version] ∧ node = .file (.ok content)
    else Laid rest node

/-- What may stand in the directory of a table is what may stand in the base directory. -/
theorem laid_append {names : List String} (tables : ∀ name ∈ names, name ≠ commitsName)
    (rest : List String) (node : FileNode) : Laid (names ++ rest) node ↔ Laid rest node := by
  induction names with
  | nil => rfl
  | cons name others inductionHypothesis =>
    rw [List.forall_mem_cons] at tables
    rw [List.cons_append, Laid, if_neg tables.1]
    exact inductionHypothesis tables.2

variable {path : String} {node : FileNode}

/-- In a directory of commit files there are just commit files. -/
theorem laid_commitNames_append {name : String} : Laid (commitNames path ++ [name]) node ↔
    ∃ version content, name = Commit.name version ∧ node = .file (.ok content) := by
  rw [commitNames, List.append_assoc,
    laid_append fun name inside => (isTableName_of_mem inside).unreserved]
  simp [Laid]

/-- On the way to commit files there are just directories. -/
theorem laid_front {front : List String} (begins : front <+: commitNames path) :
    Laid front node ↔ node = .directory := by
  have tables : ∀ name ∈ directoryNames path, name ≠ commitsName := fun name inside =>
    (isTableName_of_mem inside).unreserved
  rcases List.prefix_concat_iff.mp begins with rfl | inside
  · rw [laid_append tables]
    simp [Laid]
  · rw [← List.append_nil front, laid_append fun name held => tables name (inside.mem held)]
    rfl

/-- A list of names that does not lead out of the root. -/
def Inward (names : List String) : Prop :=
  ∀ name ∈ names.head?, name ≠ "/" ∧ name ≠ ".."

/-- No list of names on the way to commit files, or behind that, leads out of the root. -/
theorem inward_front {front rest : List String} (begins : front <+: commitNames path ++ rest) :
    Inward front := by
  intro name first
  obtain ⟨behind, rfl⟩ := List.head?_eq_some_iff.mp first
  have inside : name ∈ commitNames path := by
    obtain ⟨head, tail, names⟩ := List.exists_cons_of_ne_nil (commitNames_ne_nil path)
    rw [names, List.cons_append, List.cons_prefix_cons] at begins
    rw [names, begins.1]
    exact List.mem_cons_self
  refine ⟨?_, (isName_of_mem inside).2⟩
  rcases List.mem_append.mp inside with table | last
  · rintro rfl
    exact (isTableName_of_mem table).slashless (by decide)
  · rw [List.mem_singleton.mp last]
    decide

/-- A tree in which nothing stands below the base directory but tables. -/
structure Layout (base : FilePath) (files : FileTree) (root : Place) : Prop where
  wellFormed : files.WellFormed
  base : files.directoryAt base = .ok root
  laid : ∀ names, Inward names → ∀ node, files.node? (root ++ names) = some node → Laid names node

namespace Layout

variable {base : FilePath} {files : FileTree} {root : Place}

/-- The path to the directory of a table leads on from the base directory. -/
theorem follow_commitsOf {store : DiskStore} (layout : Layout store.base files root)
    (path : String) : files.follow (store.commitsOf path).start (store.commitsOf path) =
      files.follow root (commitNames path) :=
  FileTree.follow_join layout.base (fun _ => isName_of_mem) (commitNames_ne_nil path)

/-- The directories of a table are made from the base directory on. -/
theorem makeFrom_commitsOf {store : DiskStore} (layout : Layout store.base files root)
    (path : String) : files.makeFrom (store.commitsOf path).start (store.commitsOf path) =
      files.makeFrom root (commitNames path) :=
  FileTree.makeFrom_join layout.base (fun _ => isName_of_mem) (commitNames_ne_nil path)

/-- Where the directory of a table is there, it stands under the names of the table. -/
theorem eq_of_directoryAt {store : DiskStore} {place : Place}
    (layout : Layout store.base files root)
    (leads : files.directoryAt (store.commitsOf path) = .ok place) :
    place = root ++ commitNames path := by
  have follows := (FileTree.directoryAt_eq_ok.mp leads).2.2
  rw [layout.follow_commitsOf] at follows
  exact FileTree.eq_append_of_follow (fun _ => isName_of_mem) follows

/-- Where the path to the directory of a table leads nowhere, there is none. -/
theorem free_of_notFound {store : DiskStore} (layout : Layout store.base files root)
    (nowhere : files.follow (store.commitsOf path).start (store.commitsOf path) =
      .error .notFound) : files.node? (root ++ commitNames path) = none := by
  rw [layout.follow_commitsOf] at nowhere
  exact layout.wellFormed.free_of_notFound (fun _ => isName_of_mem) nowhere

/-- Something more may stand where it may stand. -/
theorem add (layout : Layout base files root) {names : List String}
    (free : files.node? (root ++ names) = none)
    (parent : files.node? (root ++ names).dropLast = some .directory) (here : Laid names node) :
    Layout base (files.add (root ++ names) node) root where
  wellFormed := layout.wellFormed.add free parent node
  base := by
    obtain ⟨fits, notRoot, follows⟩ := FileTree.directoryAt_eq_ok.mp layout.base
    exact FileTree.directoryAt_eq_ok.mpr
      ⟨fits, notRoot, FileTree.follow_of_within (FileTree.within_add free node) follows⟩
  laid others inward found there := by
    rw [FileTree.node?_add free] at there
    split at there
    · rename_i same
      rw [List.append_cancel_left same, ← Option.some.inj there]
      exact here
    · exact layout.laid others inward found there

/-- No file is in the way of the directories of a table. -/
theorem clear (layout : Layout base files root) (path : String) :
    files.Clear root (commitNames path) := by
  intro front begins content there
  have laid := layout.laid front (inward_front (begins.trans (List.prefix_append _ [])))
    _ there
  rw [laid_front begins] at laid
  simp at laid

/-- In a directory of commit files there are just commit files. -/
theorem commit_of_node? (layout : Layout base files root) {name : String}
    (there : files.node? (root ++ commitNames path ++ [name]) = some node) :
    ∃ version content, name = Commit.name version ∧ node = .file (.ok content) := by
  rw [List.append_assoc] at there
  exact laid_commitNames_append.mp (layout.laid _ (inward_front List.prefix_rfl) _ there)

/-- What stands in a directory of commit files can be read. -/
theorem readable_of_node? (layout : Layout base files root) {name : String}
    (there : files.node? (root ++ commitNames path ++ [name]) = some node) :
    ∃ content, node = .file (.ok content) := by
  obtain ⟨-, content, -, file⟩ := layout.commit_of_node? there
  exact ⟨content, file⟩

end Layout

/-- An empty base directory, and nothing below it. -/
theorem layout_of_empty {base : FilePath} {files : FileTree} (wellFormed : files.WellFormed)
    (empty : files.list base = .ok []) :
    ∃ root, Layout base files root ∧
      ∀ names, names ≠ [] → Inward names → files.node? (root ++ names) = none := by
  unfold FileTree.list at empty
  cases leads : files.directoryAt base with
  | error problem => simp [leads, Except.map] at empty
  | ok root =>
    rw [leads, Except.map, Except.ok.injEq] at empty
    have free : ∀ names, names ≠ [] → Inward names → files.node? (root ++ names) = none := by
      intro names some inward
      obtain ⟨name, rest, rfl⟩ := List.exists_cons_of_ne_nil some
      obtain ⟨notSlash, notBack⟩ := inward name rfl
      have first : files.node? (root ++ [name]) = none := by
        refine FileTree.node?_eq_none_iff.mpr ⟨?_, fun ⟨place, node⟩ listed same => ?_⟩
        · by_contra outside
          rcases Place.eq_of_isOutside_append_name (Bool.not_eq_false _ ▸ outside) with slash | back
          · exact notSlash slash
          · exact notBack back
        · obtain rfl : place = root ++ [name] := same
          have shown := FileTree.mem_contents_encode.mpr listed
          simp [empty] at shown
      simpa using wellFormed.node?_append first rest
    refine ⟨root, ⟨wellFormed, leads, fun names inward node there => ?_⟩, free⟩
    by_cases here : names = []
    · subst here
      rw [List.append_nil, wellFormed.node?_of_directoryAt leads] at there
      exact (Option.some.inj there).symm
    · simp [free names here inward] at there

end DiskStore

end EventRelay
