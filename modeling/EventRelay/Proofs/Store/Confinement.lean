import EventRelay.Proofs.Store.Layout

/-!
# Tables stay below the base directory

Whatever a table path holds, the path to its commit files goes on from the base directory by one
name for each segment and by the reserved name at the end. None of these names stays or goes back,
so in every tree of files the path leads below the place of the base directory, by just these names.
As no segment becomes the reserved name, no table stands in the commit directory of another one.
-/

namespace EventRelay.DiskStore

/-- The segments of a table path; empty ones do not count. -/
def segments (path : String) : List String :=
  (Text.split '/' path).filter (· ≠ "")

/-- Every segment becomes one directory name. -/
theorem directoryNames_eq (path : String) :
    directoryNames path = (segments path).map directoryName := by
  have filled : ∀ segment : String, (!segment.isEmpty) = decide (segment ≠ "") := by
    intro segment
    by_cases empty : segment = "" <;> simp [empty]
  rw [directoryNames, segments, funext filled]

/-- The commit files of a table stand at a place in a tree of files. -/
def StandsAt (store : DiskStore) (files : FileTree) (path : String) (place : Place) : Prop :=
  ∃ node, files.stat (store.commitsOf path) = .ok (place, node)

/-- What the name of a segment is made of, and what it is not. -/
theorem name_confined (segment : String) :
    (directoryName segment ≠ "" ∧ directoryName segment ≠ "." ∧ directoryName segment ≠ ".." ∧
      directoryName segment ≠ commitsName) ∧
      ∀ c ∈ (directoryName segment).toList,
        c.isAlphanum = true ∨ c = '-' ∨ c = '_' ∨ c = '.' := by
  have table := isTableName_directoryName segment
  obtain ⟨moves, forward⟩ := table.isName
  have stays : directoryName segment ≠ "" ∧ directoryName segment ≠ "." := by
    simpa [FilePath.staysPut] using moves
  refine ⟨⟨stays.1, stays.2, forward, table.unreserved⟩, fun c inside => ?_⟩
  simpa [isPlain, or_assoc] using table.plain c inside

/-- The names on the way to the commit files of one table do not lead into the commit directory of
another one. -/
theorem not_commitNames_prefix (path other : String) :
    ¬ commitNames other <+: directoryNames path := by
  intro begins
  have reserved : commitsName ∈ commitNames other :=
    List.mem_append_right _ (List.mem_singleton_self _)
  exact (isTableName_of_mem (begins.mem reserved)).unreserved rfl

/-- The path to the commit files of a table goes on from the base directory, less a slash at its
end. -/
theorem exists_front (store : DiskStore) :
    ∃ front, (store.base = front ∨ store.base = front ++ [""]) ∧
      ∀ path, store.commitsOf path = front ++ commitNames path := by
  obtain ⟨front, ends, joined⟩ := store.base.join_eq
  exact ⟨front, ends, fun path => joined _⟩

/-- Where the commit files of a table stand is below the place of the base directory. -/
theorem StandsAt.exists_base {store : DiskStore} {files : FileTree} {path : String}
    {place : Place} (stands : store.StandsAt files path place) :
    ∃ above, files.follow store.base.start store.base = .ok (above, .directory) ∧
      place = above ++ commitNames path := by
  obtain ⟨node, found⟩ := stands
  rw [FileTree.stat] at found
  cases fits : (store.commitsOf path).check with
  | error problem =>
    rw [fits] at found
    simp at found
  | ok =>
    rw [fits] at found
    dsimp only at found
    rw [if_neg (commitsOf_ne_root store path)] at found
    exact FileTree.exists_directory_of_follow_join (fun _ => isName_of_mem)
      (commitNames_ne_nil path) found

section

variable {store : DiskStore} {files : FileTree} {path other : String} {place otherPlace : Place}

/-- In one tree all tables stand below the same place. -/
theorem StandsAt.exists_shared_base (stands : store.StandsAt files path place)
    (otherStands : store.StandsAt files other otherPlace) :
    ∃ above, place = above ++ commitNames path ∧ otherPlace = above ++ commitNames other := by
  obtain ⟨above, leads, below⟩ := stands.exists_base
  obtain ⟨otherAbove, otherLeads, otherBelow⟩ := otherStands.exists_base
  rw [leads] at otherLeads
  obtain ⟨rfl, -⟩ := Prod.mk.inj (Except.ok.inj otherLeads)
  exact ⟨above, below, otherBelow⟩

/-- The directory that holds the commit directory of a table does not stand in the commit directory
of any table. -/
theorem StandsAt.not_prefix (stands : store.StandsAt files path place)
    (otherStands : store.StandsAt files other otherPlace) : ¬ otherPlace <+: place.dropLast := by
  obtain ⟨above, rfl, rfl⟩ := stands.exists_shared_base otherStands
  have holds : (above ++ commitNames path).dropLast = above ++ directoryNames path := by
    rw [commitNames, ← List.append_assoc, List.dropLast_concat]
  rw [holds, List.prefix_append_right_inj]
  exact not_commitNames_prefix path other

/-- Tables of different names stand at different places. -/
theorem StandsAt.eq_iff (stands : store.StandsAt files path place)
    (otherStands : store.StandsAt files other otherPlace) :
    place = otherPlace ↔ directoryNames path = directoryNames other := by
  obtain ⟨above, rfl, rfl⟩ := stands.exists_shared_base otherStands
  rw [List.append_cancel_left_eq, commitNames, commitNames, List.append_cancel_right_eq]

end

/-- Different names make different paths. -/
theorem commitsOf_eq_iff (store : DiskStore) (path other : String) :
    store.commitsOf path = store.commitsOf other ↔ directoryNames path = directoryNames other := by
  obtain ⟨front, -, goesOn⟩ := store.exists_front
  rw [goesOn, goesOn, List.append_cancel_left_eq, commitNames, commitNames,
    List.append_cancel_right_eq]

/-- Whatever the base directory and the path of a table, the path to its commit files is the base
directory, one harmless name for each segment, and the reserved name. In every tree of files it
leads below the base directory, by these names; no table stands in the commit directory of another
one, and two tables share their commit directory exactly when the names of their segments are the
same. -/
theorem commitsOf_confined (store : DiskStore) (path other : String) :
    (∃ front, (store.base = front ∨ store.base = front ++ [""]) ∧
      store.commitsOf path = front ++ (segments path).map directoryName ++ ["_commits"]) ∧
    (∀ segment ∈ segments path,
      (directoryName segment ≠ "" ∧ directoryName segment ≠ "." ∧ directoryName segment ≠ ".." ∧
        directoryName segment ≠ "_commits") ∧
        ∀ c ∈ (directoryName segment).toList,
          c.isAlphanum = true ∨ c = '-' ∨ c = '_' ∨ c = '.') ∧
    (store.commitsOf path = store.commitsOf other ↔
      (segments path).map directoryName = (segments other).map directoryName) ∧
    (¬ (segments other).map directoryName ++ ["_commits"] <+: (segments path).map directoryName) ∧
    ∀ files place, store.StandsAt files path place →
      (∃ above, files.follow store.base.start store.base = .ok (above, .directory) ∧
        place = above ++ (segments path).map directoryName ++ ["_commits"]) ∧
      ∀ otherPlace, store.StandsAt files other otherPlace →
        ¬ otherPlace <+: place.dropLast ∧
          (place = otherPlace ↔
            (segments path).map directoryName = (segments other).map directoryName) := by
  simp only [← directoryNames_eq]
  refine ⟨?_, fun segment _ => name_confined segment, store.commitsOf_eq_iff path other,
    not_commitNames_prefix path other, ?_⟩
  · obtain ⟨front, ends, goesOn⟩ := store.exists_front
    refine ⟨front, ends, ?_⟩
    rw [goesOn, commitNames, List.append_assoc]
    rfl
  · intro files place stands
    refine ⟨?_, fun otherPlace otherStands => ?_⟩
    · obtain ⟨above, leads, below⟩ := stands.exists_base
      refine ⟨above, leads, ?_⟩
      rw [below, commitNames, List.append_assoc]
      rfl
    · exact ⟨stands.not_prefix otherStands, stands.eq_iff otherStands⟩

/-- A tree in which the tables of two hostile paths stand side by side. -/
def hostileFiles : FileTree where
  entries :=
    [(["data"], .directory), (["data", "___"], .directory),
      (["data", "___", "_commits"], .directory), (["data", "___", "__commits"], .directory),
      (["data", "___", "__commits", "_commits"], .directory)]

/-- Neither dots nor the reserved name lead out of the base directory or into a commit directory. -/
theorem commitsOf_confined_hostile :
    (ofBase ["data"]).StandsAt hostileFiles "../_commits" ["data", "___", "__commits", "_commits"] ∧
      (ofBase ["data"]).StandsAt hostileFiles "/..//" ["data", "___", "_commits"] ∧
      ¬ ["data", "___", "_commits"] <+: ["data", "___", "__commits"] ∧
      (ofBase ["data"]).commitsOf "../_commits" ≠ (ofBase ["data"]).commitsOf "/..//" := by
  have nested : (ofBase ["data"]).StandsAt hostileFiles "../_commits"
      ["data", "___", "__commits", "_commits"] := ⟨.directory, by decide +kernel⟩
  have above : (ofBase ["data"]).StandsAt hostileFiles "/..//" ["data", "___", "_commits"] :=
    ⟨.directory, by decide +kernel⟩
  obtain ⟨-, -, shared, -, stand⟩ := commitsOf_confined (ofBase ["data"]) "../_commits" "/..//"
  obtain ⟨-, apart⟩ := stand hostileFiles _ nested
  obtain ⟨outside, places⟩ := apart _ above
  refine ⟨nested, above, outside, fun same => ?_⟩
  have samePlaces := places.mpr (shared.mp same)
  exact absurd samePlaces (by decide)

end EventRelay.DiskStore
