import EventRelay.Proofs.Json.Structure

/-!
# The normal form

Members in normal form are in strictly increasing order of name, and looking up a name finds the
last member of that name. Both facts together determine sorted members, so sorting changes nothing
where members are in order, and the normal form of a normal form is the value itself.
-/

namespace EventRelay.Json

/-- Members in strictly increasing order of name. -/
def Sorted (members : List (String × Json)) : Prop :=
  members.Pairwise fun first second => first.1 < second.1

/-- Sorted members after the first one come after it. -/
theorem sorted_cons {member : String × Json} {rest : List (String × Json)} :
    Sorted (member :: rest) ↔ (∀ other ∈ rest, member.1 < other.1) ∧ Sorted rest :=
  List.pairwise_cons

/-- Looking up a name finds the first member of that name. -/
theorem lookup_cons_eq_ite (name : String) (member : String × Json)
    (rest : List (String × Json)) :
    (member :: rest).lookup name = if name = member.1 then some member.2 else rest.lookup name := by
  obtain ⟨other, value⟩ := member
  by_cases same : name = other
  · simp [same]
  · have unlike : (name == other) = false := by simpa using same
    simp [List.lookup_cons, unlike, same]

/-! ## One member -/

/-- Inserting a member brings in nothing else. -/
theorem mem_of_mem_insertMember {name : String} {value : Json} {members : List (String × Json)}
    {member : String × Json} (present : member ∈ insertMember name value members) :
    member = (name, value) ∨ member ∈ members := by
  induction members with
  | nil => exact .inl (List.mem_singleton.mp present)
  | cons head rest inductionHypothesis =>
    obtain ⟨other, held⟩ := head
    rw [insertMember] at present
    split at present
    · exact List.mem_cons.mp present
    · split at present
      · rcases List.mem_cons.mp present with same | inRest
        · exact .inl same
        · exact .inr (List.mem_cons_of_mem _ inRest)
      · rcases List.mem_cons.mp present with same | inRest
        · exact .inr (same ▸ List.mem_cons_self)
        · exact (inductionHypothesis inRest).imp_right (List.mem_cons_of_mem _)

/-- Inserting a member keeps the order. -/
theorem sorted_insertMember (name : String) (value : Json) {members : List (String × Json)}
    (sorted : Sorted members) : Sorted (insertMember name value members) := by
  induction members with
  | nil => exact List.pairwise_singleton _ _
  | cons head rest inductionHypothesis =>
    obtain ⟨other, held⟩ := head
    obtain ⟨after, sortedRest⟩ := sorted_cons.mp sorted
    rw [insertMember]
    split
    · rename_i before
      refine sorted_cons.mpr ⟨fun member present => ?_, sorted⟩
      rcases List.mem_cons.mp present with rfl | inRest
      · exact before
      · exact lt_trans before (after member inRest)
    · rename_i notBefore
      split
      · rename_i same
        subst same
        exact sorted_cons.mpr ⟨after, sortedRest⟩
      · rename_i different
        refine sorted_cons.mpr ⟨fun member present => ?_, inductionHypothesis sortedRest⟩
        rcases mem_of_mem_insertMember present with rfl | inRest
        · exact lt_of_le_of_ne (not_lt.mp notBefore) (Ne.symm different)
        · exact after member inRest

/-- Looking up a name finds the inserted member, and every other member as before. -/
theorem lookup_insertMember (name other : String) (value : Json)
    (members : List (String × Json)) :
    (insertMember name value members).lookup other =
      if other = name then some value else members.lookup other := by
  induction members with
  | nil => rw [insertMember, lookup_cons_eq_ite]
  | cons head rest inductionHypothesis =>
    obtain ⟨held, kept⟩ := head
    rw [insertMember]
    split
    · rw [lookup_cons_eq_ite]
    · split
      · rename_i equal
        subst equal
        by_cases same : other = name <;> simp [lookup_cons_eq_ite, same]
      · rename_i different
        by_cases here : other = held
        · subst here
          simp [Ne.symm different]
        · simp [lookup_cons_eq_ite, here, inductionHypothesis]

/-! ## All members -/

/-- Sorting members onto sorted ones keeps the order. -/
theorem sorted_foldl_insertMember (members : List (String × Json))
    {held : List (String × Json)} (sorted : Sorted held) :
    Sorted (members.foldl (fun sorted member => insertMember member.1 member.2 sorted) held) := by
  induction members generalizing held with
  | nil => exact sorted
  | cons member rest inductionHypothesis =>
    exact inductionHypothesis (sorted_insertMember member.1 member.2 sorted)

/-- Sorted members are in order. -/
theorem sorted_sortMembers (members : List (String × Json)) : Sorted (sortMembers members) :=
  sorted_foldl_insertMember members .nil

/-- Sorting brings in nothing. -/
theorem mem_of_mem_sortMembers {members : List (String × Json)} {member : String × Json}
    (present : member ∈ sortMembers members) : member ∈ members := by
  suffices general : ∀ (rest held : List (String × Json)),
      member ∈ rest.foldl (fun sorted next => insertMember next.1 next.2 sorted) held →
        member ∈ held ∨ member ∈ rest from
    (general members [] present).resolve_left List.not_mem_nil
  intro rest
  induction rest with
  | nil => exact fun held found => .inl found
  | cons next rest inductionHypothesis =>
    intro held found
    rcases inductionHypothesis _ found with inserted | later
    · rcases mem_of_mem_insertMember inserted with rfl | earlier
      · exact .inr List.mem_cons_self
      · exact .inl earlier
    · exact .inr (List.mem_cons_of_mem _ later)

/-- Looking up a name among sorted members finds the last member of that name. -/
theorem lookup_sortMembers (members : List (String × Json)) (name : String) :
    (sortMembers members).lookup name = members.reverse.lookup name := by
  suffices general : ∀ (rest held : List (String × Json)),
      (rest.foldl (fun sorted next => insertMember next.1 next.2 sorted) held).lookup name =
        (rest.reverse.lookup name).or (held.lookup name) by
    have sorted := general members []
    rwa [List.lookup_nil, Option.or_none] at sorted
  intro rest
  induction rest with
  | nil => exact fun held => rfl
  | cons next rest inductionHypothesis =>
    intro held
    rw [List.foldl_cons, inductionHypothesis, lookup_insertMember, List.reverse_cons,
      List.lookup_append, Option.or_assoc]
    simp only [lookup_cons_eq_ite, List.lookup_nil]
    by_cases same : name = next.1 <;> simp [same]

/-- In sorted members a name stands for one value. -/
theorem Sorted.mem_iff_lookup {members : List (String × Json)} (sorted : Sorted members)
    {name : String} {value : Json} :
    (name, value) ∈ members ↔ members.lookup name = some value := by
  induction members with
  | nil => simp
  | cons head rest inductionHypothesis =>
    obtain ⟨other, held⟩ := head
    obtain ⟨after, sortedRest⟩ := sorted_cons.mp sorted
    by_cases here : name = other
    · subst here
      have absent : (name, value) ∉ rest := fun present =>
        lt_irrefl name (after (name, value) present)
      simp [absent, eq_comm]
    · simp [lookup_cons_eq_ite, here, inductionHypothesis sortedRest]

/-- Sorted members are determined by what looking up finds. -/
theorem Sorted.ext {first second : List (String × Json)} (sortedFirst : Sorted first)
    (sortedSecond : Sorted second) (same : ∀ name, first.lookup name = second.lookup name) :
    first = second := by
  have members : ∀ member, member ∈ first ↔ member ∈ second := by
    rintro ⟨name, value⟩
    rw [sortedFirst.mem_iff_lookup, sortedSecond.mem_iff_lookup, same]
  have distinct : ∀ {list : List (String × Json)}, Sorted list → list.Nodup := fun sorted =>
    List.Pairwise.imp (fun before equal => (ne_of_lt before) (congrArg Prod.fst equal)) sorted
  refine List.Perm.eq_of_pairwise ?_ sortedFirst sortedSecond
    ((List.perm_ext_iff_of_nodup (distinct sortedFirst) (distinct sortedSecond)).mpr members)
  intro a b _ _ before after
  exact absurd (lt_trans before after) (lt_irrefl _)

/-- Looking up in reverse finds the same where no name is repeated. -/
theorem Sorted.lookup_reverse {members : List (String × Json)} (sorted : Sorted members)
    (name : String) : members.reverse.lookup name = members.lookup name := by
  induction members with
  | nil => rfl
  | cons head rest inductionHypothesis =>
    obtain ⟨other, held⟩ := head
    obtain ⟨after, sortedRest⟩ := sorted_cons.mp sorted
    rw [List.reverse_cons, List.lookup_append, inductionHypothesis sortedRest]
    by_cases here : name = other
    · subst here
      have absent : rest.lookup name = none := by
        rw [Option.eq_none_iff_forall_ne_some]
        intro value found
        exact lt_irrefl name (after (name, value) (sortedRest.mem_iff_lookup.mpr found))
      simp [absent]
    · simp [lookup_cons_eq_ite, here]

/-- Sorting changes nothing where members are in order. -/
theorem sortMembers_of_sorted {members : List (String × Json)} (sorted : Sorted members) :
    sortMembers members = members :=
  (sorted_sortMembers members).ext sorted fun name => by
    rw [lookup_sortMembers, sorted.lookup_reverse]

/-! ## Values -/

/-- A value in normal form. -/
def Normal (value : Json) : Prop :=
  value.normal = value

/-- The normal form is in normal form. -/
theorem normal_normal (value : Json) : value.normal.Normal := by
  unfold Normal
  induction value with
  | null => rfl
  | boolean _ => rfl
  | number _ => rfl
  | text _ => rfl
  | array items inductionHypothesis =>
    rw [normal_array, normal_array, List.map_map]
    congr 1
    exact List.map_congr_left inductionHypothesis
  | object members inductionHypothesis =>
    rw [normal_object, normal_object]
    have kept : ((sortMembers (members.map fun member => (member.1, member.2.normal))).map
        fun member => (member.1, member.2.normal)) =
          sortMembers (members.map fun member => (member.1, member.2.normal)) := by
      rw [map_eq_self_iff]
      intro member present
      obtain ⟨source, found, rfl⟩ := List.mem_map.mp (mem_of_mem_sortMembers present)
      rw [inductionHypothesis source found]
    rw [kept, sortMembers_of_sorted (sorted_sortMembers _)]

/-- The elements of an array in normal form are in normal form. -/
theorem Normal.item {items : List Json} (normal : (array items).Normal) {item : Json}
    (member : item ∈ items) : item.Normal := by
  rw [Normal, normal_array, Json.array.injEq, map_eq_self_iff] at normal
  exact normal item member

/-- The members of an object in normal form are sorted. -/
theorem Normal.sorted {members : List (String × Json)} (normal : (object members).Normal) :
    Sorted members := by
  rw [Normal, normal_object, Json.object.injEq] at normal
  exact normal ▸ sorted_sortMembers _

/-- The member values of an object in normal form are in normal form. -/
theorem Normal.member {members : List (String × Json)} (normal : (object members).Normal)
    {member : String × Json} (present : member ∈ members) : member.2.Normal := by
  rw [Normal, normal_object, Json.object.injEq] at normal
  rw [← normal] at present
  obtain ⟨source, _, rfl⟩ := List.mem_map.mp (mem_of_mem_sortMembers present)
  exact normal_normal source.2

/-- The normal form has no other strings than the value. -/
theorem mem_texts_of_mem_normal {value : Json} {text : String}
    (member : text ∈ value.normal.texts) : text ∈ value.texts := by
  induction value with
  | null | boolean _ | number _ | text _ => exact member
  | array items inductionHypothesis =>
    rw [normal_array, texts_array, List.mem_flatMap] at member
    obtain ⟨_, inside, found⟩ := member
    obtain ⟨item, present, rfl⟩ := List.mem_map.mp inside
    exact mem_texts_array present (inductionHypothesis item present found)
  | object members inductionHypothesis =>
    rw [normal_object, texts_object, List.mem_flatMap] at member
    obtain ⟨_, inside, found⟩ := member
    obtain ⟨source, present, rfl⟩ := List.mem_map.mp (mem_of_mem_sortMembers inside)
    refine mem_texts_object present ?_
    rcases List.mem_cons.mp found with rfl | later
    · exact List.mem_cons_self
    · exact List.mem_cons_of_mem _ (inductionHypothesis source present later)

/-- The normal form is no deeper than the value. -/
theorem depth_normal_le (value : Json) : value.normal.depth ≤ value.depth := by
  induction value with
  | null => exact le_rfl
  | boolean _ => exact le_rfl
  | number _ => exact le_rfl
  | text _ => exact le_rfl
  | array items inductionHypothesis =>
    rw [normal_array, depth_array_le_iff, List.forall_mem_map]
    exact ⟨depth_array_pos items, fun item member =>
      lt_of_le_of_lt (inductionHypothesis item member) (depth_lt_array member)⟩
  | object members inductionHypothesis =>
    rw [normal_object, depth_object_le_iff]
    refine ⟨depth_object_pos members, fun member present => ?_⟩
    obtain ⟨source, found, rfl⟩ := List.mem_map.mp (mem_of_mem_sortMembers present)
    exact lt_of_le_of_lt (inductionHypothesis source found) (depth_lt_object found)

end EventRelay.Json
