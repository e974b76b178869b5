import EventRelay.Proofs.Envelope
import EventRelay.Proofs.Store.Confinement
import EventRelay.Stage.Assembly

/-!
# Two segments below the root prefix

The settings trim the root prefix, the writer trims it once more, and a name that is put into a path
has its separators replaced. After all of these the path of an event is still the segments of the
trimmed prefix with one segment for the namespace and one for the table behind them. On disk each of
the two becomes the directory name that its name alone decides, so no event reaches the table of
another namespace.
-/

namespace EventRelay

/-! ## Root prefixes -/

/-- What is left of a text when the slashes at its ends are taken away. -/
def IsCore (text core : String) : Prop :=
  ∃ before after, text.toList = List.replicate before '/' ++ core.toList ++ List.replicate after '/' ∧
    core.toList.head? ≠ some '/' ∧ core.toList.getLast? ≠ some '/'

/-- The segments of a root prefix without slashes at its ends; an empty one has none. -/
def rootSegments (core : String) : List String :=
  if core = "" then [] else Text.split '/' core

/-- Trimming slashes leaves what is between them. -/
theorem isCore_trimBy (text : String) : IsCore text (Text.trimBy (· = '/') text) := by
  obtain ⟨front, back, parts, slashes, slashesBehind, first, last⟩ :=
    Text.exists_trimmed (fun c => decide (c = '/')) text.toList
  have before : front = List.replicate front.length '/' :=
    List.eq_replicate_of_mem fun c inside => by simpa using slashes c inside
  have after : back = List.replicate back.length '/' :=
    List.eq_replicate_of_mem fun c inside => by simpa using slashesBehind c inside
  rw [IsCore, Text.trimBy, String.toList_ofList]
  refine ⟨front.length, back.length, ?_, fun slash => ?_, fun slash => ?_⟩
  · rw [← before, ← after]
    exact parts
  · simpa using first '/' slash
  · simpa using last '/' slash

namespace TableWriter

/-- A trimmed root prefix is not trimmed any further. -/
theorem trimRoot_of_trimRoot {root trimmed : String} (cut : trimRoot root = some trimmed) :
    trimRoot trimmed = some trimmed := by
  unfold trimRoot at cut ⊢
  extract_lets once at cut
  extract_lets twice
  split at cut
  · simp at cut
  · rename_i filled
    obtain rfl := Option.some.inj cut
    have same : twice = once := by
      simp only [twice, once, Text.trimBy, String.toList_ofList, Text.trimList_trimList]
    rw [same, if_neg filled]

/-- Trimming a root prefix twice is trimming it once. -/
theorem bind_trimRoot (root : Option String) :
    (root.bind trimRoot).bind trimRoot = root.bind trimRoot := by
  cases root with
  | none => rfl
  | some root =>
    rw [Option.bind_some]
    cases cut : trimRoot root with
    | none => rfl
    | some trimmed =>
      rw [Option.bind_some]
      exact trimRoot_of_trimRoot cut

/-- The settings lead to the path that a writer with their raw root prefix uses. -/
theorem pathOf_writer {Store : Type} (writer : TableWriter Store) (storage : StorageSettings)
    (destination : Destination) :
    storage.writer.pathOf destination =
      (writer.withRoot storage.rootPrefix).pathOf destination := by
  have roots : storage.writer.root = (writer.withRoot storage.rootPrefix).root :=
    bind_trimRoot storage.rootPrefix
  rw [pathOf, pathOf, roots]

end TableWriter

/-! ## Names of destinations -/

namespace Destination

/-- A name takes one segment. -/
theorem split_segment (name : String) : Text.split '/' (segment name) = [segment name] := by
  have slashless : '/' ∉ (segment name).toList := by
    rw [segment, String.toList_ofList, List.mem_map]
    rintro ⟨c, -, turned⟩
    split at turned
    · exact absurd turned (by decide)
    · rename_i plain
      exact plain (Or.inl turned)
  rw [Text.split, Text.splitList_of_not_mem slashless, List.map_singleton, String.ofList_toList]

/-- A name that is not empty takes a segment that is not empty. -/
theorem segment_ne_empty {name : String} (filled : name ≠ "") : segment name ≠ "" := by
  intro empty
  have chars := congrArg String.toList empty
  rw [segment, String.toList_ofList] at chars
  have none : name.toList = [] := by simpa using chars
  exact filled (String.toList_injective none)

/-- Replacing separators in a name does not change the directory name that it becomes. -/
theorem directoryName_segment (name : String) :
    DiskStore.directoryName (segment name) = DiskStore.directoryName name := by
  have same : ((segment name).toList.map fun c => if DiskStore.isPlain c then c else '_') =
      name.toList.map fun c => if DiskStore.isPlain c then c else '_' := by
    rw [segment, String.toList_ofList, List.map_map]
    apply List.map_congr_left
    intro c _
    rw [Function.comp_apply]
    split
    · rename_i separator
      rcases separator with rfl | rfl <;> decide
    · rfl
  rw [DiskStore.directoryName, DiskStore.directoryName, same]

/-- The namespace and the table of an event have names. -/
theorem ofEvent_ne_empty (event : Json) :
    (ofEvent event).namespaceName ≠ "" ∧ (ofEvent event).table ≠ "" := by
  have filled : ∀ (names : List String) (default : String), default ≠ "" →
      (event.firstField? names).getD default ≠ "" := by
    intro names default given
    cases found : event.firstField? names with
    | none => exact given
    | some value =>
      obtain ⟨name, -, present⟩ := List.exists_of_findSome?_eq_some found
      exact Json.ne_empty_of_field? value present
  exact ⟨filled _ _ (by decide), filled _ _ (by decide)⟩

/-- Cut at its slashes, the path of a destination is the segments of the root prefix and one segment
for each of the two names. -/
theorem split_path (destination : Destination) (root : Option String) :
    Text.split '/' (destination.path root) =
      (root.elim [] (Text.split '/')) ++
        [segment destination.namespaceName, segment destination.table] := by
  have slash : ∀ before after : String, Text.split '/' (before ++ "/" ++ after) =
      Text.split '/' before ++ Text.split '/' after := by
    intro before after
    have separator : "/".toList = ['/'] := by decide
    rw [Text.split, String.toList_append, String.toList_append, separator, List.append_assoc,
      List.singleton_append, Text.splitList_append, List.map_append, Text.split, Text.split]
  have below : Text.split '/' (segment destination.namespaceName ++ "/" ++
      segment destination.table) =
        [segment destination.namespaceName, segment destination.table] := by
    rw [slash, split_segment, split_segment, List.singleton_append]
  cases root with
  | none =>
    simp only [path, below, Option.elim_none, List.nil_append]
  | some root =>
    simp only [path, slash root, below, Option.elim_some]

end Destination

namespace TableWriter

/-- The segments of a trimmed root prefix. -/
theorem split_trimRoot (root : Option String) :
    ∃ core, IsCore (root.getD "") core ∧
      (root.bind trimRoot).elim [] (Text.split '/') = rootSegments core := by
  refine ⟨Text.trimBy (· = '/') (root.getD ""), isCore_trimBy _, ?_⟩
  cases root with
  | none => rfl
  | some root =>
    simp only [Option.bind_some, Option.getD_some, trimRoot, rootSegments]
    by_cases empty : Text.trimBy (· = '/') root = ""
    · simp [empty]
    · simp [empty]

end TableWriter

namespace DiskStore

open Destination (segment)

/-- Two destinations below one root prefix share a directory of commit files exactly when their
names become the same directory names. -/
theorem commitsOf_path_eq_iff (store : DiskStore) {first second : Destination}
    (root : Option String) (filled : first.namespaceName ≠ "" ∧ first.table ≠ "")
    (otherFilled : second.namespaceName ≠ "" ∧ second.table ≠ "") :
    store.commitsOf (first.path root) = store.commitsOf (second.path root) ↔
      directoryName first.namespaceName = directoryName second.namespaceName ∧
        directoryName first.table = directoryName second.table := by
  have names : ∀ destination : Destination,
      destination.namespaceName ≠ "" ∧ destination.table ≠ "" →
        directoryNames (destination.path root) =
          ((root.elim [] (Text.split '/')).filter (· ≠ "")).map directoryName ++
            [directoryName destination.namespaceName, directoryName destination.table] := by
    rintro destination ⟨named, tabled⟩
    have kept : ([segment destination.namespaceName, segment destination.table].filter (· ≠ "")) =
        [segment destination.namespaceName, segment destination.table] := by
      simp [Destination.segment_ne_empty named, Destination.segment_ne_empty tabled]
    rw [directoryNames_eq, segments, destination.split_path, List.filter_append, List.map_append,
      kept, List.map_cons, List.map_singleton, Destination.directoryName_segment,
      Destination.directoryName_segment]
  rw [commitsOf_eq_iff, names first filled, names second otherFilled, List.append_cancel_left_eq]
  simp

end DiskStore

open Destination (ofEvent segment)

/-- Settings with a root prefix and a writer that is given the same prefix use one path for an
event. Cut at its slashes it is the segments of the prefix, without the slashes at its ends, and two
segments more that are not empty. On disk two events share a directory of commit files exactly when
the names of their namespaces become the same directory name and so do the names of their tables. -/
theorem TableWriter.pathOf_ofEvent {Store : Type} (writer : TableWriter Store)
    (storage : StorageSettings) (event : Json) :
    storage.writer.pathOf (ofEvent event) =
      (writer.withRoot storage.rootPrefix).pathOf (ofEvent event) ∧
    (∃ core, IsCore (storage.rootPrefix.getD "") core ∧
      Text.split '/' (storage.writer.pathOf (ofEvent event)) = rootSegments core ++
        [segment (ofEvent event).namespaceName, segment (ofEvent event).table]) ∧
    (segment (ofEvent event).namespaceName ≠ "" ∧ segment (ofEvent event).table ≠ "") ∧
    ∀ (store : DiskStore) (other : Json),
      store.commitsOf (storage.writer.pathOf (ofEvent event)) =
          store.commitsOf (storage.writer.pathOf (ofEvent other)) ↔
        DiskStore.directoryName (ofEvent event).namespaceName =
            DiskStore.directoryName (ofEvent other).namespaceName ∧
          DiskStore.directoryName (ofEvent event).table =
            DiskStore.directoryName (ofEvent other).table := by
  have filled := Destination.ofEvent_ne_empty
  refine ⟨writer.pathOf_writer storage _, ?_, ?_, ?_⟩
  · obtain ⟨core, isCore, same⟩ := split_trimRoot storage.rootPrefix
    refine ⟨core, isCore, ?_⟩
    rw [writer.pathOf_writer, pathOf, Destination.split_path, ← same]
    rfl
  · exact ⟨Destination.segment_ne_empty (filled event).1,
      Destination.segment_ne_empty (filled event).2⟩
  · intro store other
    exact store.commitsOf_path_eq_iff storage.writer.root (filled event) (filled other)

end EventRelay
