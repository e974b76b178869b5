import EventRelay.Proofs.FileTree
import EventRelay.Proofs.Text.Utf8
import Mathlib

/-!
# Paths of names

A path of names never stays where it is and never goes back, so it leads below where it starts, by
just these names. Where no file is in its way and no name is too long, it leads to a directory or
nowhere, and its directories can be made. A path that goes on from a directory leads there by way of
that directory.
-/

namespace EventRelay

open Text (Bytes)

namespace FilePath

/-- A piece of a path that stands for something in the directory before it. -/
def IsName (piece : String) : Prop :=
  staysPut piece = false ∧ piece ≠ ".."

theorem IsName.after? {piece : String} (named : IsName piece) (place : Place) :
    place.after? piece = none := by
  simp [Place.after?, named.1, named.2]

theorem IsName.after?_ne_some {piece : String} (named : IsName piece) (place next : Place) :
    place.after? piece ≠ some next := by
  simp [named.after?]

theorem IsName.ne_empty {piece : String} (named : IsName piece) : piece ≠ "" := by
  rintro rfl
  simp [IsName, staysPut] at named

/-- A name is only refused when it is too long. -/
theorem eq_nameTooLong_of_checkName {name : String} {problem : FileError}
    (refused : checkName name = .error problem) : problem = .nameTooLong := by
  unfold checkName at refused
  split at refused
  · exact (Except.error.inj refused).symm
  · simp at refused

/-- A path is only refused for what is written in it. -/
theorem eq_of_check {path : FilePath} {problem : FileError}
    (refused : path.check = .error problem) : problem = .nulInName ∨ problem = .nameTooLong := by
  unfold check at refused
  split at refused
  · exact Or.inl (Except.error.inj refused).symm
  · split at refused
    · exact Or.inr (Except.error.inj refused).symm
    · simp at refused

/-- A path that ends in a name is within the limits when it would be with a longer name. -/
theorem check_of_shorter {directory : FilePath} {first second : String}
    (fits : check (directory ++ [first]) = .ok ()) (noNul : '\x00' ∉ second.toList)
    (shorter : (Text.Utf8.encode second).length ≤ (Text.Utf8.encode first).length) :
    check (directory ++ [second]) = .ok () := by
  obtain ⟨front, text⟩ := text_append_name directory
  have length : ∀ name, (Text.Utf8.encode (FilePath.text (directory ++ [name]))).length =
      (front.flatMap String.utf8EncodeChar).length + (Text.Utf8.encode name).length := by
    intro name
    rw [Text.Utf8.encode, text, List.flatMap_append, List.length_append]
    rfl
  unfold check at fits ⊢
  rw [length] at fits ⊢
  split at fits
  · simp at fits
  · rename_i clean
    split at fits
    · simp at fits
    · rename_i short
      rw [List.any_append, Bool.or_eq_true, not_or] at clean
      rw [if_neg, if_neg (by omega)]
      rw [List.any_append, Bool.or_eq_true, not_or]
      exact ⟨clean.1, by simpa using noNul⟩

/-- Going on with names puts them behind the path, less a slash at its end. -/
theorem join_eq (path : FilePath) :
    ∃ front, (path = front ∨ path = front ++ [""]) ∧
      ∀ names, path.join names = front ++ names := by
  by_cases slash : path.getLast? = some ""
  · obtain ⟨front, rfl⟩ := List.getLast?_eq_some_iff.mp slash
    exact ⟨front, Or.inr rfl, fun names => by simp [join]⟩
  · exact ⟨path, Or.inl rfl, fun names => by simp [join, slash]⟩

/-- Going on with names does not change where a path starts. -/
theorem start_append_names {front : FilePath} (notRoot : front ≠ [""]) {name : String}
    (filled : name ≠ "") (rest : List String) : (front ++ name :: rest).start = front.start := by
  match front with
  | [] => simp [start, filled]
  | [first] =>
    have named : first ≠ "" := fun empty => notRoot (by rw [empty])
    simp [start, named]
  | first :: second :: others =>
    by_cases empty : first = ""
    · simp [start, empty]
    · simp [start, empty]

/-- Nor does it when the path ends in a slash. -/
theorem start_join (path : FilePath) {name : String} (filled : name ≠ "") (rest : List String) :
    (path.join (name :: rest)).start = path.start := by
  by_cases root : path = [""]
  · subst root
    simp [join, start, filled]
  · obtain ⟨front, rfl | rfl, joined⟩ := path.join_eq
    · rw [joined, start_append_names root filled]
    · rw [joined]
      cases front with
      | nil => simp at root
      | cons first others => cases others <;> by_cases empty : first = "" <;> simp [start, empty]

end FilePath

namespace FileTree

variable {tree : FileTree} {place found : Place} {names : List String}

/-- A path of names leads below where it starts, by these names. -/
theorem eq_append_of_follow (named : ∀ name ∈ names, FilePath.IsName name) {node : FileNode}
    (leads : tree.follow place names = .ok (found, node)) : found = place ++ names := by
  fun_induction tree.follow place names with
  | case1 place =>
    obtain ⟨rfl, -⟩ := Prod.mk.inj (Except.ok.inj leads)
    rw [List.append_nil]
  | case2 place piece rest next after inductionHypothesis =>
    exact absurd after ((List.forall_mem_cons.mp named).1.after?_ne_some place next)
  | case5 place piece rest _ fits inside inductionHypothesis =>
    rw [inductionHypothesis (List.forall_mem_cons.mp named).2 leads, List.append_assoc]
    rfl
  | case6 place piece rest _ fits content inside last =>
    obtain ⟨rfl, -⟩ := Prod.mk.inj (Except.ok.inj leads)
    rw [List.isEmpty_iff.mp last]
  | _ => simp at leads

/-- Where a path of names leads nowhere, nothing stands. -/
theorem WellFormed.free_of_notFound (wellFormed : tree.WellFormed)
    (named : ∀ name ∈ names, FilePath.IsName name)
    (missing : tree.follow place names = .error .notFound) :
    tree.node? (place ++ names) = none := by
  fun_induction tree.follow place names with
  | case2 place piece rest next after inductionHypothesis =>
    exact absurd after ((List.forall_mem_cons.mp named).1.after?_ne_some place next)
  | case3 place piece rest _ problem tooLong =>
    rw [Except.error.inj missing] at tooLong
    exact absurd (FilePath.eq_nameTooLong_of_checkName tooLong) (by simp)
  | case4 place piece rest _ fits free =>
    simpa using wellFormed.node?_append free rest
  | case5 place piece rest _ fits inside inductionHypothesis =>
    simpa using inductionHypothesis (List.forall_mem_cons.mp named).2 missing
  | _ => simp at missing

/-- Directories are made from where the path to them goes on from one that is there. -/
theorem makeFrom_append {directory : Place} {first : FilePath}
    (leads : tree.follow place first = .ok (directory, .directory)) (rest : FilePath) :
    tree.makeFrom place (first ++ rest) = tree.makeFrom directory rest := by
  fun_induction tree.follow place first with
  | case1 place =>
    obtain ⟨rfl, -⟩ := Prod.mk.inj (Except.ok.inj leads)
    rfl
  | case2 place piece others next after inductionHypothesis =>
    rw [List.cons_append, makeFrom, after]
    exact inductionHypothesis leads
  | case5 place piece others named fits inside inductionHypothesis =>
    rw [List.cons_append, makeFrom, named, fits, inside]
    exact inductionHypothesis leads
  | case6 place piece others named fits content inside last => simp at leads
  | _ => simp at leads

/-- What holds of a tree and of every tree that has one more directory on the way holds once the
directories of a path of names are made. -/
theorem makeFrom_induction {motive : FileTree → Prop} (holds : motive tree)
    (here : tree.node? place = some .directory) (named : ∀ name ∈ names, FilePath.IsName name)
    (grows : ∀ grown front, front <+: names → motive grown →
      grown.node? (place ++ front) = none →
      grown.node? (place ++ front).dropLast = some .directory →
      motive (grown.add (place ++ front) .directory)) :
    motive (tree.makeFrom place names).2 := by
  fun_induction tree.makeFrom place names with
  | case2 tree place piece rest next after inductionHypothesis =>
    exact absurd after ((List.forall_mem_cons.mp named).1.after?_ne_some place next)
  | case4 tree place piece rest _ fits inside inductionHypothesis =>
    refine inductionHypothesis holds inside (List.forall_mem_cons.mp named).2 ?_
    intro grown front begins held free parent
    rw [List.append_assoc] at free parent ⊢
    exact grows grown (piece :: front) (by simpa using begins) held free parent
  | case7 tree place piece rest _ fits free dotless inductionHypothesis =>
    have added : motive (tree.add (place ++ [piece]) .directory) :=
      grows tree [piece] (by simp) holds free (by rwa [List.dropLast_concat])
    refine inductionHypothesis added (by rw [node?_add free, if_pos rfl])
      (List.forall_mem_cons.mp named).2 ?_
    intro grown front begins held free parent
    rw [List.append_assoc] at free parent ⊢
    exact grows grown (piece :: front) (by simpa using begins) held free parent
  | _ => exact holds

/-- No file is in the way of a path of names. -/
def Clear (tree : FileTree) (place : Place) (names : List String) : Prop :=
  ∀ front, front <+: names → ∀ content, tree.node? (place ++ front) ≠ some (.file content)

theorem Clear.tail {piece : String} (clear : tree.Clear place (piece :: names)) :
    tree.Clear (place ++ [piece]) names := by
  intro front begins content
  rw [List.append_assoc]
  exact clear (piece :: front) (by simpa using begins) content

theorem Clear.add {directory : Place} (clear : tree.Clear place names)
    (free : tree.node? directory = none) : (tree.add directory .directory).Clear place names := by
  intro front begins content there
  exact clear front begins content ((gainsDirectories_add free).files _ _ there)

/-- Where no file is in the way and no name is too long, the directories of a path of names are
made. -/
theorem makeFrom_ok (named : ∀ name ∈ names, FilePath.IsName name)
    (short : ∀ name ∈ names, FilePath.checkName name = .ok ()) (clear : tree.Clear place names) :
    (tree.makeFrom place names).1 = .ok () := by
  fun_induction tree.makeFrom place names with
  | case1 => rfl
  | case2 tree place piece rest next after inductionHypothesis =>
    exact absurd after ((List.forall_mem_cons.mp named).1.after?_ne_some place next)
  | case3 tree place piece rest _ problem tooLong =>
    rw [(List.forall_mem_cons.mp short).1] at tooLong
    simp at tooLong
  | case4 tree place piece rest _ fits inside inductionHypothesis =>
    exact inductionHypothesis (List.forall_mem_cons.mp named).2 (List.forall_mem_cons.mp short).2
      clear.tail
  | case5 tree place piece rest _ fits content inside =>
    exact absurd inside (clear [piece] (by simp) content)
  | case6 tree place piece rest _ fits free dotted =>
    rw [Bool.and_eq_true, decide_eq_true_eq] at dotted
    have moves := (named "." (List.mem_cons_of_mem _ dotted.2)).1
    simp [FilePath.staysPut] at moves
  | case7 tree place piece rest _ fits free dotless inductionHypothesis =>
    exact inductionHypothesis (List.forall_mem_cons.mp named).2 (List.forall_mem_cons.mp short).2
      (clear.add free).tail

/-- Where no file is in the way and no name is too long, a path of names leads to a directory or
nowhere. -/
theorem follow_eq_or_notFound (named : ∀ name ∈ names, FilePath.IsName name)
    (short : ∀ name ∈ names, FilePath.checkName name = .ok ()) (clear : tree.Clear place names) :
    tree.follow place names = .ok (place ++ names, .directory) ∨
      tree.follow place names = .error .notFound := by
  fun_induction tree.follow place names with
  | case1 place => exact Or.inl (by rw [List.append_nil])
  | case2 place piece rest next after inductionHypothesis =>
    exact absurd after ((List.forall_mem_cons.mp named).1.after?_ne_some place next)
  | case3 place piece rest _ problem tooLong =>
    rw [(List.forall_mem_cons.mp short).1] at tooLong
    simp at tooLong
  | case4 place piece rest _ fits free => exact Or.inr rfl
  | case5 place piece rest _ fits inside inductionHypothesis =>
    have later := inductionHypothesis (List.forall_mem_cons.mp named).2
      (List.forall_mem_cons.mp short).2 clear.tail
    rwa [List.append_assoc] at later
  | case6 place piece rest _ fits content inside =>
    exact absurd inside (clear [piece] (by simp) content)
  | case7 place piece rest _ fits content inside =>
    exact absurd inside (clear [piece] (by simp) content)

/-! ## From a directory on -/

/-- What a path leads to from a directory is there. -/
theorem WellFormed.node?_of_follow (wellFormed : tree.WellFormed) {path : FilePath}
    {node : FileNode} (here : tree.node? place = some .directory)
    (leads : tree.follow place path = .ok (found, node)) : tree.node? found = some node := by
  fun_induction tree.follow place path with
  | case1 place =>
    obtain ⟨rfl, rfl⟩ := Prod.mk.inj (Except.ok.inj leads)
    exact here
  | case2 place piece rest next after inductionHypothesis =>
    exact inductionHypothesis (wellFormed.node?_after here after) leads
  | case5 place piece rest _ fits inside inductionHypothesis =>
    exact inductionHypothesis inside leads
  | case6 place piece rest _ fits content inside last =>
    obtain ⟨rfl, rfl⟩ := Prod.mk.inj (Except.ok.inj leads)
    exact inside
  | _ => simp at leads

/-- The place of a directory holds a directory. -/
theorem WellFormed.node?_of_directoryAt (wellFormed : tree.WellFormed) {path : FilePath}
    (leads : tree.directoryAt path = .ok place) : tree.node? place = some .directory :=
  wellFormed.node?_of_follow (tree.node?_start path) (directoryAt_eq_ok.mp leads).2.2

/-- A directory is not found where the path to it leads nowhere. -/
theorem follow_of_directoryAt_notFound {directory : FilePath} (notRoot : directory ≠ [""])
    (nowhere : tree.directoryAt directory = .error .notFound) :
    tree.follow directory.start directory = .error .notFound := by
  rw [directoryAt, stat] at nowhere
  cases fits : directory.check with
  | error problem =>
    rw [fits] at nowhere
    rcases FilePath.eq_of_check fits with rfl | rfl <;> simp at nowhere
  | ok =>
    rw [fits] at nowhere
    simp only [if_neg notRoot] at nowhere
    split at nowhere <;> simp_all

/-- A slash at the end of a path does not lead on. -/
theorem follow_of_follow_slash {front : FilePath}
    (leads : tree.follow place (front ++ [""]) = .ok (found, .directory)) :
    tree.follow place front = .ok (found, .directory) := by
  fun_induction tree.follow place front with
  | case1 place => simpa [follow, Place.after?, FilePath.staysPut] using leads
  | case2 place piece rest next after inductionHypothesis =>
    rw [List.cons_append, follow, after] at leads
    exact inductionHypothesis leads
  | case3 place piece rest named problem tooLong =>
    rw [List.cons_append, follow, named, tooLong] at leads
    simp at leads
  | case4 place piece rest named fits free =>
    rw [List.cons_append, follow, named, fits, free] at leads
    simp at leads
  | case5 place piece rest named fits inside inductionHypothesis =>
    rw [List.cons_append, follow_cons named fits inside] at leads
    exact inductionHypothesis leads
  | case6 place piece rest named fits content inside last =>
    rw [List.cons_append, follow, named, fits, inside] at leads
    simp at leads
  | case7 place piece rest named fits content inside last =>
    rw [List.cons_append, follow, named, fits, inside] at leads
    simp at leads

/-- A path that goes on from a directory with names leads on from where the directory stands. -/
theorem exists_front_of_directoryAt {directory : FilePath}
    (leads : tree.directoryAt directory = .ok place) (named : ∀ name ∈ names, FilePath.IsName name)
    (some : names ≠ []) :
    ∃ front, directory.join names = front ++ names ∧
      tree.follow (directory.join names).start front = .ok (place, .directory) := by
  obtain ⟨-, -, follows⟩ := directoryAt_eq_ok.mp leads
  obtain ⟨front, ends, joined⟩ := directory.join_eq
  obtain ⟨name, rest, rfl⟩ := List.exists_cons_of_ne_nil some
  refine ⟨front, joined _, ?_⟩
  rw [FilePath.start_join directory (List.forall_mem_cons.mp named).1.ne_empty]
  rcases ends with rfl | rfl
  · exact follows
  · exact follow_of_follow_slash follows

/-- Following a path that goes on from a directory. -/
theorem follow_join {directory : FilePath} (leads : tree.directoryAt directory = .ok place)
    (named : ∀ name ∈ names, FilePath.IsName name) (some : names ≠ []) :
    tree.follow (directory.join names).start (directory.join names) = tree.follow place names := by
  obtain ⟨front, joined, follows⟩ := exists_front_of_directoryAt leads named some
  rw [joined] at follows ⊢
  exact follow_append follows _

/-- Making the directories of a path that goes on from a directory. -/
theorem makeFrom_join {directory : FilePath} (leads : tree.directoryAt directory = .ok place)
    (named : ∀ name ∈ names, FilePath.IsName name) (some : names ≠ []) :
    tree.makeFrom (directory.join names).start (directory.join names) =
      tree.makeFrom place names := by
  obtain ⟨front, joined, follows⟩ := exists_front_of_directoryAt leads named some
  rw [joined] at follows ⊢
  exact makeFrom_append follows _

/-- A path that leads on leads to a directory first. -/
theorem exists_follow_of_append {first rest : FilePath} {node : FileNode} (some : rest ≠ [])
    (leads : tree.follow place (first ++ rest) = .ok (found, node)) :
    ∃ directory, tree.follow place first = .ok (directory, .directory) ∧
      tree.follow directory rest = .ok (found, node) := by
  fun_induction tree.follow place first with
  | case1 place => exact ⟨place, rfl, leads⟩
  | case2 place piece others next after inductionHypothesis =>
    rw [List.cons_append, follow, after] at leads
    exact inductionHypothesis leads
  | case3 place piece others named problem tooLong =>
    rw [List.cons_append, follow, named, tooLong] at leads
    simp at leads
  | case4 place piece others named fits free =>
    rw [List.cons_append, follow, named, fits, free] at leads
    simp at leads
  | case5 place piece others named fits inside inductionHypothesis =>
    rw [List.cons_append, follow_cons named fits inside] at leads
    exact inductionHypothesis leads
  | case6 place piece others named fits content inside =>
    rw [List.cons_append, follow, named, fits, inside] at leads
    simp [some] at leads
  | case7 place piece others named fits content inside =>
    rw [List.cons_append, follow, named, fits, inside] at leads
    simp [some] at leads

/-- A path that goes on with names from a directory leads below that directory, by these names. -/
theorem exists_directory_of_follow_join {directory : FilePath} {node : FileNode}
    (named : ∀ name ∈ names, FilePath.IsName name) (some : names ≠ [])
    (leads : tree.follow (directory.join names).start (directory.join names) =
      .ok (found, node)) :
    ∃ above, tree.follow directory.start directory = .ok (above, .directory) ∧
      found = above ++ names := by
  obtain ⟨front, ends, joined⟩ := directory.join_eq
  obtain ⟨name, rest, rfl⟩ := List.exists_cons_of_ne_nil some
  rw [FilePath.start_join directory (List.forall_mem_cons.mp named).1.ne_empty, joined] at leads
  obtain ⟨above, here, below⟩ := exists_follow_of_append some leads
  refine ⟨above, ?_, eq_append_of_follow named below⟩
  rcases ends with rfl | rfl
  · exact here
  · rw [follow_append here]
    rfl

/-! ## What is created -/

/-- Nothing is created under a path that is refused for what is written in it. -/
theorem create_of_check {path : FilePath} {problem : FileError}
    (refused : path.check = .error problem) (content : Bytes) :
    tree.create path content = .error problem := by
  have stat : tree.stat path = .error problem := by rw [stat, refused]
  rw [create, stat]
  rcases FilePath.eq_of_check refused with rfl | rfl <;> rfl

/-- What is created was not found before. -/
theorem stat_of_create {path : FilePath} {content : Bytes} {after : FileTree}
    (created : tree.create path content = .ok after) : tree.stat path = .error .notFound := by
  unfold create at created
  split at created
  · simp at created
  · assumption
  · simp at created

/-- A name under which something is created is not too long, and neither is the path to it. -/
theorem short_of_create {directory : FilePath} {name : String} {content : Bytes} {after : FileTree}
    (named : FilePath.IsName name) (notRoot : directory ≠ [""])
    (leads : tree.follow directory.start directory = .ok (place, .directory))
    (created : tree.create (directory ++ [name]) content = .ok after) :
    FilePath.check (directory ++ [name]) = .ok () ∧ FilePath.checkName name = .ok () := by
  have missing := stat_of_create created
  cases reachable : FilePath.check (directory ++ [name]) with
  | error problem =>
    rw [create_of_check reachable] at created
    simp at created
  | ok =>
    refine ⟨rfl, ?_⟩
    have nonempty : directory ++ [name] ≠ [""] := by
      simpa [List.append_eq_singleton_iff, notRoot] using fun _ => named.ne_empty
    rw [stat, reachable] at missing
    dsimp only at missing
    rw [if_neg nonempty, FilePath.start_append_names notRoot named.ne_empty, follow_append leads,
      follow, named.after?] at missing
    cases short : FilePath.checkName name with
    | error problem =>
      obtain rfl := FilePath.eq_nameTooLong_of_checkName short
      rw [short] at missing
      simp at missing
    | ok => rfl

end FileTree

end EventRelay
