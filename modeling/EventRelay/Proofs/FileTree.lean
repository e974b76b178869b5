import EventRelay.FileTree
import Mathlib

/-!
# Paths through a tree of files

In a well-formed tree everything listed stands in a directory that is there, so nothing lies below
a place that is free. What a path leads to stays where it is when a tree only gains something.
Making the directories of a path gives a tree in which the path leads to a directory, and no file
more or less.
-/

namespace EventRelay

open Text (Bytes)

/-! ## A name at the end of a path -/

/-- A name at the end of a path does not change where the path starts. -/
theorem FilePath.start_append_name {directory : FilePath} (notRoot : directory ≠ [""])
    (name : String) : FilePath.start (directory ++ [name]) = directory.start := by
  cases directory with
  | nil => simp [start]
  | cons first rest =>
    cases rest with
    | nil =>
      have named : first ≠ "" := fun empty => notRoot (by rw [empty])
      simp [start, named]
    | cons second others =>
      by_cases empty : first = ""
      · simp [start, empty]
      · simp [start, empty]

/-- The text of a path ends in its last name. -/
theorem FilePath.text_append_name (directory : FilePath) :
    ∃ front, ∀ last, (FilePath.text (directory ++ [last])).toList = front ++ last.toList := by
  induction directory with
  | nil => exact ⟨[], fun last => by simp [FilePath.text, Text.join, Text.joinList]⟩
  | cons piece rest inductionHypothesis =>
    obtain ⟨front, text⟩ := inductionHypothesis
    refine ⟨piece.toList ++ '/' :: front, fun last => ?_⟩
    have others := text last
    rw [FilePath.text, Text.join, String.toList_ofList] at others ⊢
    cases rest with
    | nil => simp_all [Text.joinList]
    | cons second more => simp_all [Text.joinList]

/-! ## Places -/

namespace Place

/-- What lies around the root has nothing but such places above it. -/
theorem isOutside_of_append {place : Place} {rest : List String}
    (outside : isOutside (place ++ rest) = true) : place.isOutside = true := by
  unfold isOutside at outside ⊢
  rw [Bool.or_eq_true, decide_eq_true_eq, List.all_append, Bool.and_eq_true] at outside
  rw [Bool.or_eq_true, decide_eq_true_eq]
  rcases outside with slash | ⟨backwards, -⟩
  · rcases List.append_eq_singleton_iff.mp slash with ⟨rfl, -⟩ | ⟨rfl, -⟩
    · exact Or.inr rfl
    · exact Or.inl rfl
  · exact Or.inr backwards

/-- Only a slash and two dots lead outside. -/
theorem eq_of_isOutside_append_name {place : Place} {name : String}
    (outside : isOutside (place ++ [name]) = true) : name = "/" ∨ name = ".." := by
  rw [isOutside, Bool.or_eq_true, decide_eq_true_eq, List.append_eq_singleton_iff] at outside
  rcases outside with (⟨-, slash⟩ | ⟨-, absurd⟩) | backwards
  · exact Or.inl (List.singleton_inj.mp slash)
  · simp at absurd
  · rw [List.all_append, Bool.and_eq_true] at backwards
    exact Or.inr (by simpa using backwards.2)

/-- The names of a directory are those that lead from it to a place. -/
theorem nameIn?_eq_some {directory place : Place} {name : String} :
    directory.nameIn? place = some name ↔ place = directory ++ [name] := by
  unfold nameIn?
  constructor
  · intro named
    split at named
    · rename_i inside
      obtain ⟨front, rfl⟩ := List.getLast?_eq_some_iff.mp named
      rw [← inside, List.dropLast_concat]
    · simp at named
  · rintro rfl
    simp

end Place

namespace FileTree

/-! ## What is listed -/

/-- Everything listed stands in a directory that is there. -/
def WellFormed (tree : FileTree) : Prop :=
  ∀ entry ∈ tree.entries, tree.node? entry.1.dropLast = some .directory

instance (tree : FileTree) : Decidable tree.WellFormed :=
  inferInstanceAs (Decidable (∀ entry ∈ tree.entries, _ = _))

/-- The second tree has everything that the first one has. -/
def Within (first second : FileTree) : Prop :=
  ∀ place node, first.node? place = some node → second.node? place = some node

/-- A place is free when it is not around the root and nothing is listed for it. -/
theorem node?_eq_none_iff {tree : FileTree} {place : Place} :
    tree.node? place = none ↔
      place.isOutside = false ∧ ∀ entry ∈ tree.entries, entry.1 ≠ place := by
  unfold node?
  split
  · rename_i outside
    simp [outside]
  · rename_i inside
    rw [List.lookup_eq_none_iff]
    simp only [inside, true_and]
    constructor
    · intro unlisted entry listed same
      simpa [same] using unlisted entry listed
    · intro unlisted entry listed
      simpa using fun same => unlisted entry listed same.symm

/-- What is there and not around the root is listed. -/
theorem mem_entries {tree : FileTree} {place : Place} {node : FileNode}
    (inside : place.isOutside = false) (there : tree.node? place = some node) :
    (place, node) ∈ tree.entries := by
  rw [node?, inside] at there
  obtain ⟨upper, lower, split, -⟩ := List.lookup_eq_some_iff.mp there
  simp [split]

/-- A file stands in a directory. -/
theorem WellFormed.directory_of_file {tree : FileTree} (wellFormed : tree.WellFormed)
    {place : Place} {name : String} {content : Except FileError Bytes}
    (there : tree.node? (place ++ [name]) = some (.file content)) :
    tree.node? place = some .directory := by
  have inside : Place.isOutside (place ++ [name]) = false := by
    by_contra outside
    rw [node?, if_pos (Bool.not_eq_false _ ▸ outside)] at there
    simp at there
  simpa using wellFormed _ (mem_entries inside there)

/-- Adding a node to a free place adds just that. -/
theorem node?_add {tree : FileTree} {place : Place} (free : tree.node? place = none)
    (node : FileNode) (other : Place) :
    (tree.add place node).node? other = if other = place then some node else tree.node? other := by
  have inside := (node?_eq_none_iff.mp free).1
  by_cases same : other = place
  · subst same
    have unlisted : tree.entries.lookup other = none := by
      simpa [node?, inside] using free
    simp [node?, add, inside, List.lookup_append, unlisted]
  · have unlike : (other == place) = false := by simpa using same
    simp [node?, add, same, List.lookup_append, List.lookup_cons, unlike]

theorem within_add {tree : FileTree} {place : Place} (free : tree.node? place = none)
    (node : FileNode) : tree.Within (tree.add place node) := by
  intro other found listed
  rw [node?_add free]
  split
  · rename_i same
    rw [same, free] at listed
    simp at listed
  · exact listed

/-- What is added to a directory leaves the tree well formed. -/
theorem WellFormed.add {tree : FileTree} (wellFormed : tree.WellFormed) {place : Place}
    (free : tree.node? place = none) (parent : tree.node? place.dropLast = some .directory)
    (node : FileNode) : (tree.add place node).WellFormed := by
  intro entry listed
  rcases List.mem_append.mp listed with old | new
  · exact within_add free node _ _ (wellFormed entry old)
  · rw [List.mem_singleton.mp new]
    exact within_add free node _ _ parent

/-- Nothing is listed at or below a free place. -/
theorem WellFormed.not_prefix {tree : FileTree} (wellFormed : tree.WellFormed) {place : Place}
    (free : tree.node? place = none) {entry : Place × FileNode} (listed : entry ∈ tree.entries) :
    ¬ place <+: entry.1 := by
  obtain ⟨inside, unlisted⟩ := node?_eq_none_iff.mp free
  rintro ⟨rest, below⟩
  induction rest using List.reverseRecOn generalizing entry with
  | nil => exact unlisted entry listed (by rw [← below, List.append_nil])
  | append_singleton front last inductionHypothesis =>
    have parent := wellFormed entry listed
    rw [← below, ← List.append_assoc, List.dropLast_concat] at parent
    have within : Place.isOutside (place ++ front) = false := by
      by_contra outside
      have around := Place.isOutside_of_append (Bool.not_eq_false _ ▸ outside)
      simp [inside] at around
    exact inductionHypothesis (mem_entries within parent) rfl

/-- Nothing is at or below a free place. -/
theorem WellFormed.node?_append {tree : FileTree} (wellFormed : tree.WellFormed) {place : Place}
    (free : tree.node? place = none) (rest : List String) :
    tree.node? (place ++ rest) = none := by
  rw [node?_eq_none_iff]
  constructor
  · by_contra outside
    have around := Place.isOutside_of_append (Bool.not_eq_false _ ▸ outside)
    simp [(node?_eq_none_iff.mp free).1] at around
  · intro entry listed same
    exact wellFormed.not_prefix free listed ⟨rest, same.symm⟩

/-! ## Removing -/

/-- Removing what is not there changes nothing. -/
theorem WellFormed.removeAt_free {tree : FileTree} (wellFormed : tree.WellFormed) {place : Place}
    (free : tree.node? place = none) : tree.removeAt place = tree := by
  have kept : tree.entries.filter (fun entry => !place.isPrefixOf entry.1) = tree.entries := by
    rw [List.filter_eq_self]
    intro entry listed
    simpa [← List.isPrefixOf_iff_prefix] using wellFormed.not_prefix free listed
  rw [removeAt, kept]

/-- What is added at a place is removed with it. -/
theorem removeAt_add_self (tree : FileTree) (place : Place) (node : FileNode) :
    (tree.add place node).removeAt place = tree.removeAt place := by
  simp [removeAt, add, List.filter_append]

/-- What is added elsewhere stays. -/
theorem removeAt_add_of_not_prefix (tree : FileTree) {place other : Place}
    (elsewhere : ¬ place <+: other) (node : FileNode) :
    (tree.add other node).removeAt place = (tree.removeAt place).add other node := by
  have kept : place.isPrefixOf other = false := by
    simpa [← List.isPrefixOf_iff_prefix] using elsewhere
  simp [removeAt, add, List.filter_append, kept]

/-! ## Following a path -/

/-- The name of a directory leads into it. -/
theorem follow_cons {tree : FileTree} {place : Place} {piece : String}
    (named : place.after? piece = none) (fits : FilePath.checkName piece = .ok ())
    (inside : tree.node? (place ++ [piece]) = some .directory) (rest : FilePath) :
    tree.follow place (piece :: rest) = tree.follow (place ++ [piece]) rest := by
  rw [follow, named, fits, inside]

/-- A path that goes on from a directory is followed from there. -/
theorem follow_append {tree : FileTree} {place directory : Place} {first : FilePath}
    (leads : tree.follow place first = .ok (directory, .directory)) (rest : FilePath) :
    tree.follow place (first ++ rest) = tree.follow directory rest := by
  fun_induction tree.follow place first with
  | case1 place =>
    obtain ⟨rfl, -⟩ := Prod.mk.inj (Except.ok.inj leads)
    rfl
  | case2 place piece others next after inductionHypothesis =>
    rw [List.cons_append, follow, after]
    exact inductionHypothesis leads
  | case5 place piece others named fits inside inductionHypothesis =>
    rw [List.cons_append, follow_cons named fits inside]
    exact inductionHypothesis leads
  | case6 place piece others named fits content inside last => simp at leads
  | _ => simp at leads

/-- A path leads on to where it led when a tree gains something. -/
theorem follow_of_within {first second : FileTree} (within : first.Within second) {place : Place}
    {path : FilePath} {found : Place × FileNode} (leads : first.follow place path = .ok found) :
    second.follow place path = .ok found := by
  fun_induction first.follow place path with
  | case1 place => exact leads
  | case2 place piece rest next after inductionHypothesis =>
    rw [follow, after]
    exact inductionHypothesis leads
  | case5 place piece rest named fits inside inductionHypothesis =>
    rw [follow_cons named fits (within _ _ inside)]
    exact inductionHypothesis leads
  | case6 place piece rest named fits content inside last =>
    rw [follow, named, fits, within _ _ inside]
    simpa [last] using leads
  | _ => simp at leads

/-- A step that is no name leads from a directory to a directory. -/
theorem WellFormed.node?_after {tree : FileTree} (wellFormed : tree.WellFormed)
    {place next : Place} {piece : String} (here : tree.node? place = some .directory)
    (after : place.after? piece = some next) : tree.node? next = some .directory := by
  unfold Place.after? at after
  split at after
  · rw [← Option.some.inj after]
    exact here
  · split at after
    · rw [← Option.some.inj after]
      unfold Place.parent
      split
      · exact here
      · split
        · rename_i slashless outside
          have backwards : place.all (· = "..") = true := by
            simpa [Place.isOutside, slashless] using outside
          have around : Place.isOutside (place ++ [".."]) = true := by
            simp only [Place.isOutside, List.all_append, backwards]
            simp
          rw [node?, if_pos around]
        · rename_i inside
          exact wellFormed _ (mem_entries (by simpa using inside) here)
    · simp at after

/-- A path that never goes back leads below where it starts. -/
theorem prefix_of_follow {tree : FileTree} {place found : Place} {path : FilePath}
    {node : FileNode} (forward : ".." ∉ path)
    (leads : tree.follow place path = .ok (found, node)) : place <+: found := by
  fun_induction tree.follow place path with
  | case1 place =>
    obtain ⟨rfl, -⟩ := Prod.mk.inj (Except.ok.inj leads)
    exact List.prefix_rfl
  | case2 place piece rest next after inductionHypothesis =>
    rw [List.mem_cons, not_or] at forward
    have stays : next = place := by
      unfold Place.after? at after
      split at after
      · exact (Option.some.inj after).symm
      · simp [Ne.symm forward.1] at after
    exact stays ▸ inductionHypothesis forward.2 leads
  | case5 place piece rest named fits inside inductionHypothesis =>
    rw [List.mem_cons, not_or] at forward
    exact (List.prefix_append place [piece]).trans (inductionHypothesis forward.2 leads)
  | case6 place piece rest named fits content inside last =>
    obtain ⟨rfl, -⟩ := Prod.mk.inj (Except.ok.inj leads)
    exact List.prefix_append place [piece]
  | _ => simp at leads

/-! ## Making directories -/

/-- The second tree has some directories more than the first one, and nothing else more or less. -/
structure GainsDirectories (first second : FileTree) : Prop where
  within : first.Within second
  files : ∀ place content, second.node? place = some (.file content) →
    first.node? place = some (.file content)
  strays : second.strays = first.strays

theorem GainsDirectories.refl (tree : FileTree) : tree.GainsDirectories tree :=
  ⟨fun _ _ listed => listed, fun _ _ listed => listed, rfl⟩

theorem GainsDirectories.trans {first second third : FileTree}
    (here : first.GainsDirectories second) (there : second.GainsDirectories third) :
    first.GainsDirectories third where
  within place node listed := there.within place node (here.within place node listed)
  files place content listed := here.files place content (there.files place content listed)
  strays := there.strays.trans here.strays

theorem gainsDirectories_add {tree : FileTree} {place : Place} (free : tree.node? place = none) :
    tree.GainsDirectories (tree.add place .directory) where
  within := within_add free .directory
  files other content listed := by
    rw [node?_add free] at listed
    split at listed
    · simp at listed
    · exact listed
  strays := rfl

/-- Making directories adds directories only, also where it is refused half way. -/
theorem gainsDirectories_makeFrom (tree : FileTree) (place : Place) (path : FilePath) :
    tree.GainsDirectories (tree.makeFrom place path).2 := by
  fun_induction tree.makeFrom place path with
  | case2 tree place piece rest next after inductionHypothesis => exact inductionHypothesis
  | case4 tree place piece rest named fits inside inductionHypothesis =>
    exact inductionHypothesis
  | case7 tree place piece rest named fits free made inductionHypothesis =>
    exact (gainsDirectories_add free).trans inductionHypothesis
  | _ => exact .refl _

theorem within_of_makeFrom {tree made : FileTree} {place : Place} {path : FilePath}
    {answer : Except FileError Unit} (making : tree.makeFrom place path = (answer, made)) :
    tree.Within made := by
  have gains := gainsDirectories_makeFrom tree place path
  rw [making] at gains
  exact gains.within

theorem WellFormed.makeFrom {tree : FileTree} (wellFormed : tree.WellFormed) {place : Place}
    (here : tree.node? place = some .directory) (path : FilePath) :
    (tree.makeFrom place path).2.WellFormed := by
  fun_induction tree.makeFrom place path with
  | case2 tree place piece rest next after inductionHypothesis =>
    exact inductionHypothesis wellFormed (wellFormed.node?_after here after)
  | case4 tree place piece rest named fits inside inductionHypothesis =>
    exact inductionHypothesis wellFormed inside
  | case7 tree place piece rest named fits free made inductionHypothesis =>
    have grown := wellFormed.add free (by rwa [List.dropLast_concat]) .directory
    exact inductionHypothesis grown (by rw [node?_add free, if_pos rfl])
  | _ => exact wellFormed

/-- A path whose directories are made leads to a directory. -/
theorem exists_follow_of_makeFrom {tree made : FileTree} {place : Place} {path : FilePath}
    (making : tree.makeFrom place path = (.ok (), made)) :
    ∃ found, made.follow place path = .ok (found, .directory) := by
  fun_induction tree.makeFrom place path with
  | case1 tree place => exact ⟨place, rfl⟩
  | case2 tree place piece rest next after inductionHypothesis =>
    obtain ⟨found, leads⟩ := inductionHypothesis making
    exact ⟨found, by rw [follow, after]; exact leads⟩
  | case4 tree place piece rest named fits inside inductionHypothesis =>
    obtain ⟨found, leads⟩ := inductionHypothesis making
    exact ⟨found, by rwa [follow_cons named fits (within_of_makeFrom making _ _ inside)]⟩
  | case7 tree place piece rest named fits free made inductionHypothesis =>
    obtain ⟨found, leads⟩ := inductionHypothesis making
    have inside : (tree.add (place ++ [piece]) .directory).node? (place ++ [piece]) =
        some .directory := by rw [node?_add free, if_pos rfl]
    exact ⟨found, by rwa [follow_cons named fits (within_of_makeFrom making _ _ inside)]⟩
  | _ => simp at making

/-- Where something had to be made, the path led nowhere before. -/
theorem eq_or_notFound_of_makeFrom {tree made : FileTree} {place : Place} {path : FilePath}
    (making : tree.makeFrom place path = (.ok (), made)) :
    made = tree ∨ tree.follow place path = .error .notFound := by
  fun_induction tree.makeFrom place path with
  | case1 tree place => exact Or.inl (Prod.mk.inj making).2.symm
  | case2 tree place piece rest next after inductionHypothesis =>
    rw [follow, after]
    exact inductionHypothesis making
  | case4 tree place piece rest named fits inside inductionHypothesis =>
    rw [follow_cons named fits inside]
    exact inductionHypothesis making
  | case7 tree place piece rest named fits free made inductionHypothesis =>
    exact Or.inr (by rw [follow, named, fits, free])
  | _ => simp at making

/-- Where something had to be made for a path that never goes back, there was nothing where it leads
now. -/
theorem eq_or_free_of_makeFrom {tree made : FileTree} {place found : Place} {path : FilePath}
    {node : FileNode} (wellFormed : tree.WellFormed) (forward : ".." ∉ path)
    (making : tree.makeFrom place path = (.ok (), made))
    (leads : made.follow place path = .ok (found, node)) :
    made = tree ∨ tree.node? found = none := by
  fun_induction tree.makeFrom place path with
  | case1 tree place => exact Or.inl (Prod.mk.inj making).2.symm
  | case2 tree place piece rest next after inductionHypothesis =>
    rw [List.mem_cons, not_or] at forward
    rw [follow, after] at leads
    exact inductionHypothesis wellFormed forward.2 making leads
  | case4 tree place piece rest named fits inside inductionHypothesis =>
    rw [List.mem_cons, not_or] at forward
    rw [follow_cons named fits (within_of_makeFrom making _ _ inside)] at leads
    exact inductionHypothesis wellFormed forward.2 making leads
  | case7 tree place piece rest named fits free made inductionHypothesis =>
    rw [List.mem_cons, not_or] at forward
    have inside : (tree.add (place ++ [piece]) .directory).node? (place ++ [piece]) =
        some .directory := by rw [node?_add free, if_pos rfl]
    rw [follow_cons named fits (within_of_makeFrom making _ _ inside)] at leads
    obtain ⟨below, rfl⟩ := prefix_of_follow forward.2 leads
    exact Or.inr (wellFormed.node?_append free below)
  | _ => simp at making

/-- The second tree has one file more than the first one, perhaps some directories more, and
everything that the first one has. -/
structure GainsFile (first second : FileTree) (place : Place) (content : Bytes) : Prop where
  free : first.node? place = none
  files : ∀ other found, second.node? other = some (.file found) ↔
    first.node? other = some (.file found) ∨ other = place ∧ found = .ok content
  directories : ∀ other, first.node? other = some .directory →
    second.node? other = some .directory
  strays : second.strays = first.strays

theorem GainsDirectories.gainsFile {first second : FileTree}
    (gains : first.GainsDirectories second) {place : Place} (free : second.node? place = none)
    (content : Bytes) : first.GainsFile (second.add place (.file (.ok content))) place content where
  free := by
    by_contra listed
    obtain ⟨node, listed⟩ := Option.ne_none_iff_exists'.mp listed
    simp [gains.within place node listed] at free
  files other found := by
    rw [node?_add free]
    constructor
    · intro listed
      split at listed
      · rename_i same
        exact Or.inr ⟨same, (FileNode.file.inj (Option.some.inj listed)).symm⟩
      · exact Or.inl (gains.files other found listed)
    · rintro (listed | ⟨rfl, rfl⟩)
      · have kept := within_add free (.file (.ok content)) other _ (gains.within other _ listed)
        rwa [node?_add free] at kept
      · rw [if_pos rfl]
  directories other listed := within_add free _ other _ (gains.within other _ listed)
  strays := gains.strays

/-! ## Names in a directory -/

/-- A path starts at a directory. -/
theorem node?_start (tree : FileTree) (path : FilePath) :
    tree.node? path.start = some .directory := by
  have outside : Place.isOutside path.start = true := by
    unfold FilePath.start
    split <;> rfl
  rw [node?, if_pos outside]

/-- The place of a directory is where the path to it leads. -/
theorem directoryAt_eq_ok {tree : FileTree} {directory : FilePath} {place : Place} :
    tree.directoryAt directory = .ok place ↔ directory.check = .ok () ∧ directory ≠ [""] ∧
      tree.follow directory.start directory = .ok (place, .directory) := by
  rw [directoryAt, FileTree.stat]
  cases directory.check with
  | error problem => simp
  | ok =>
    by_cases root : directory = [""]
    · simp [root]
    · simp only [root, if_false, true_and, ne_eq, not_false_eq_true]
      split <;> simp_all

/-- A name of a file in a directory, with a path to it that no limit is in the way of. -/
structure Names (directory : FilePath) (name : String) : Prop where
  notRoot : directory ≠ [""]
  moves : FilePath.staysPut name = false
  forward : name ≠ ".."
  short : FilePath.checkName name = .ok ()
  reachable : FilePath.check (directory ++ [name]) = .ok ()

variable {tree : FileTree} {directory : FilePath} {place : Place} {name : String}

theorem Names.after? (names : Names directory name) (place : Place) :
    place.after? name = none := by
  simp [Place.after?, names.moves, names.forward]

/-- What a name in a directory stands for. -/
theorem Names.stat (names : Names directory name)
    (leads : tree.follow directory.start directory = .ok (place, .directory)) :
    tree.stat (directory ++ [name]) =
      match tree.node? (place ++ [name]) with
      | none => .error .notFound
      | some node => .ok (place ++ [name], node) := by
  have nonempty : directory ++ [name] ≠ [""] := by
    intro empty
    rcases List.append_eq_singleton_iff.mp empty with ⟨-, same⟩ | ⟨same, -⟩
    · have moves := names.moves
      rw [List.singleton_inj.mp same] at moves
      simp [FilePath.staysPut] at moves
    · exact names.notRoot same
  rw [FileTree.stat, names.reachable]
  dsimp only
  rw [if_neg nonempty, FilePath.start_append_name names.notRoot, follow_append leads, follow,
    names.after?, names.short]
  dsimp only
  split
  · rename_i free
    rw [free]
  · rename_i inside
    rw [inside, follow]
  · rename_i content inside
    rw [inside]
    rfl

/-- A file is created under a name that is free. -/
theorem Names.create (names : Names directory name)
    (leads : tree.follow directory.start directory = .ok (place, .directory))
    (free : tree.node? (place ++ [name]) = none) (content : Bytes) :
    tree.create (directory ++ [name]) content =
      .ok (tree.add (place ++ [name]) (.file (.ok content))) := by
  rw [FileTree.create, names.stat leads, free]
  simp only [List.getLast?_concat, List.dropLast_concat,
    FilePath.start_append_name names.notRoot, leads, names.after?]
  rfl

/-- A file is removed by its name. -/
theorem Names.remove (names : Names directory name)
    (leads : tree.follow directory.start directory = .ok (place, .directory))
    {content : Except FileError Bytes}
    (inside : tree.node? (place ++ [name]) = some (.file content)) :
    tree.remove (directory ++ [name]) = tree.removeAt (place ++ [name]) := by
  rw [FileTree.remove, names.stat leads, inside]

/-- A file is read by its name. -/
theorem Names.read (names : Names directory name)
    (leads : tree.follow directory.start directory = .ok (place, .directory))
    {content : Except FileError Bytes}
    (inside : tree.node? (place ++ [name]) = some (.file content)) :
    tree.read (directory ++ [name]) = content := by
  rw [FileTree.read, names.stat leads, inside]
  rfl

end FileTree

end EventRelay
