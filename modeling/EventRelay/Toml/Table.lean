import EventRelay.Toml.Value

/-!
# Tables under construction

A table can be written in pieces: under a header, by keys with dots, or as the part of a longer
header. What has been written in one way cannot be written again, and only a table that has merely
been passed through may still get its own header.
-/

namespace EventRelay.Toml

/-- How a table has come about. -/
inductive TableKind
  /-- By a header of its own. -/
  | header
  /-- As a part of a longer header. -/
  | implied
  /-- By keys with dots. -/
  | dotted
  deriving DecidableEq, Repr

/-- What a name in a table stands for. -/
inductive Item
  | value (value : Value)
  | table (kind : TableKind) (entries : List (String × Item))
  /-- An array of tables that each have a header; the last one is the one being written. -/
  | tables (elements : List (List (String × Item)))

/-- The entries of a table. -/
abbrev Entries := List (String × Item)

/-- A table with how it has come about. -/
structure Draft where
  kind : TableKind
  entries : Entries

namespace Draft

/-- A table without entries that has a header. -/
def empty : Draft :=
  ⟨.header, []⟩

/-- The item as part of a table. -/
def item (draft : Draft) : Item :=
  .table draft.kind draft.entries

/-- The table with an item under a name, in place of the one that is there. -/
def put (draft : Draft) (name : String) (item : Item) : Draft :=
  if draft.entries.any fun entry => entry.1 = name then
    { draft with
      entries := draft.entries.map fun entry => if entry.1 = name then (name, item) else entry }
  else { draft with entries := draft.entries ++ [(name, item)] }

/-- Changes the table that a path leads to, where tables that are missing come about on the way. A
path of dotted keys does not lead through a table with a header. -/
def changeAt (draft : Draft) (dotted : Bool) (change : Draft → Option Draft) :
    List String → Option Draft
  | [] => change draft
  | name :: path =>
    match draft.entries.lookup name with
    | none => do
      let made ← changeAt ⟨if dotted then .dotted else .implied, []⟩ dotted change path
      pure (draft.put name made.item)
    | some (.value _) => none
    | some (.tables elements) => do
      let current ← elements.getLast?
      let changed ← changeAt ⟨.header, current⟩ dotted change path
      pure (draft.put name (.tables (elements.dropLast ++ [changed.entries])))
    | some (.table kind entries) =>
      if dotted && kind = .header then none
      else do
        let changed ← changeAt ⟨kind, entries⟩ dotted change path
        pure (draft.put name changed.item)

/-- Enters a value under a key whose parts before the last one are given as a path. -/
def enter (path : List String) (name : String) (value : Value) (draft : Draft) : Option Draft :=
  let add (target : Draft) : Option Draft :=
    if decide (target.kind = .dotted) = path.isEmpty then none
    else if (target.entries.lookup name).isSome then none
    else some (target.put name (.value value))
  draft.changeAt true add path

/-- Opens the table of a header. -/
def openTable (path : List String) (name : String) (draft : Draft) : Option Draft :=
  let add (parent : Draft) : Option Draft :=
    match parent.entries.lookup name with
    | none => some (parent.put name (.table .header []))
    | some (.table .implied entries) => some (parent.put name (.table .header entries))
    | some _ => none
  draft.changeAt false add path

/-- Opens the next table of an array of tables. -/
def openElement (path : List String) (name : String) (draft : Draft) : Option Draft :=
  let add (parent : Draft) : Option Draft :=
    match parent.entries.lookup name with
    | none => some (parent.put name (.tables [[]]))
    | some (.tables elements) => some (parent.put name (.tables (elements ++ [[]])))
    | some _ => none
  draft.changeAt false add path

end Draft

mutual

/-- An item as a value. -/
def Item.toValue : Item → Value
  | .value value => value
  | .table _ entries => .table (valuesOf entries)
  | .tables elements => .array (tableValues elements)

/-- Entries as values. -/
def valuesOf : List (String × Item) → List (String × Value)
  | [] => []
  | (name, item) :: rest => (name, item.toValue) :: valuesOf rest

/-- The elements of an array of tables as values. -/
def tableValues : List (List (String × Item)) → List Value
  | [] => []
  | entries :: rest => .table (valuesOf entries) :: tableValues rest

end

end EventRelay.Toml
