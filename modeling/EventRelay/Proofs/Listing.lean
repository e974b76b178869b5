import EventRelay.Proofs.FilePath
import EventRelay.Proofs.Text.Utf8

/-!
# What a directory shows

A tree is what stands at its places, in whatever order they are listed. A directory shows everything
that stands in it once. What it shows under a text is what a path leads to that goes on with this
text, unless a limit is in the way; what it shows under another name stands under no text.
-/

namespace EventRelay.FileTree

open Text (Bytes)

variable {tree other : FileTree} {directory : FilePath} {place : Place} {name : String}

/-- A tree in which nothing is listed twice. -/
structure Distinct (tree : FileTree) : Prop where
  places : (tree.entries.map Prod.fst).Nodup
  strays : (tree.strays.map fun stray => (stray.directory, stray.name)).Nodup

theorem distinct_iff : tree.Distinct ↔ (tree.entries.map Prod.fst).Nodup ∧
    (tree.strays.map fun stray => (stray.directory, stray.name)).Nodup :=
  ⟨fun distinct => ⟨distinct.places, distinct.strays⟩, fun both => ⟨both.1, both.2⟩⟩

instance (tree : FileTree) : Decidable tree.Distinct :=
  decidable_of_iff _ distinct_iff.symm

/-- What stands under a text in a directory. -/
theorem mem_named {entry : FileEntry} :
    entry ∈ tree.named place ↔ ∃ name, entry.name = Text.Utf8.encode name ∧
      (place ++ [name], entry.node) ∈ tree.entries := by
  rw [named, List.mem_filterMap]
  simp only [Option.map_eq_some_iff, Place.nameIn?_eq_some]
  constructor
  · rintro ⟨listed, inside, name, placed, rfl⟩
    exact ⟨name, rfl, by rwa [← placed]⟩
  · rintro ⟨name, encoded, inside⟩
    exact ⟨_, inside, name, rfl, by rw [← encoded]⟩

/-- What stands in a directory under a name that is no text. -/
theorem mem_unnamed {entry : FileEntry} :
    entry ∈ tree.unnamed place ↔ ∃ stray ∈ tree.strays, stray.directory = place ∧
      entry = ⟨stray.name, stray.node⟩ := by
  simp [unnamed, and_assoc, eq_comm]

/-- A name that is no text is that of no text. -/
theorem decode?_of_unnamed {entry : FileEntry} (inside : entry ∈ tree.unnamed place) :
    Text.Utf8.decode? entry.name = none := by
  obtain ⟨stray, -, -, rfl⟩ := mem_unnamed.mp inside
  exact stray.notText

/-- Under a text a directory shows what stands there. -/
theorem mem_contents_encode {node : FileNode} :
    ⟨Text.Utf8.encode name, node⟩ ∈ tree.contents place ↔
      (place ++ [name], node) ∈ tree.entries := by
  rw [contents, List.mem_append, mem_named]
  constructor
  · rintro (⟨text, same, inside⟩ | stray)
    · rwa [Text.Utf8.encode_injective same]
    · simpa [Text.Utf8.decode?_encode] using decode?_of_unnamed stray
  · exact fun inside => Or.inl ⟨name, rfl, inside⟩

/-- A directory shows no name twice. -/
theorem Distinct.nodup_contents (distinct : tree.Distinct) (place : Place) :
    ((tree.contents place).map FileEntry.name).Nodup := by
  rw [contents, List.map_append, List.nodup_append']
  refine ⟨?_, ?_, ?_⟩
  · have names : (tree.named place).map FileEntry.name =
        ((tree.entries.map Prod.fst).filterMap place.nameIn?).map Text.Utf8.encode := by
      rw [named, List.map_filterMap, List.filterMap_map, List.map_filterMap]
      simp only [Option.map_map, Function.comp_def]
    rw [names]
    refine (distinct.places.filterMap fun first second name isFirst isSecond => ?_).map
      Text.Utf8.encode_injective
    rw [Place.nameIn?_eq_some.mp isFirst, Place.nameIn?_eq_some.mp isSecond]
  · have names : (tree.unnamed place).map FileEntry.name =
        (tree.strays.filter fun stray => stray.directory = place).map Stray.name := by
      rw [unnamed, List.map_map]
      rfl
    rw [names]
    have apart := (List.pairwise_map.mp distinct.strays).filter
      fun stray => decide (stray.directory = place)
    refine List.pairwise_map.mpr (apart.imp_of_mem fun isHere alsoHere differ same => differ ?_)
    have here := of_decide_eq_true (List.mem_filter.mp isHere).2
    have there := of_decide_eq_true (List.mem_filter.mp alsoHere).2
    rw [here, there, same]
  · intro name isText isNone
    obtain ⟨entry, inside, rfl⟩ := List.mem_map.mp isText
    obtain ⟨stray, outside, same⟩ := List.mem_map.mp isNone
    obtain ⟨text, encoded, -⟩ := mem_named.mp inside
    simpa [same, encoded, Text.Utf8.decode?_encode] using decode?_of_unnamed outside

/-! ## Paths into a directory -/


/-- A directory that is listed shows what stands in its place. -/
theorem list_eq_ok {listed : List FileEntry} :
    tree.list directory = .ok listed ↔
      ∃ place, tree.directoryAt directory = .ok place ∧ listed = tree.contents place := by
  rw [list]
  cases tree.directoryAt directory <;> simp [Except.map, eq_comm]

end EventRelay.FileTree
