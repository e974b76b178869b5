import EventRelay.Json.Basic
import Mathlib

/-!
# Induction over JSON values, and what a value holds

The functions on values recurse through lists of elements and of members. Here each of them is one
equation per constructor in terms of the lists as a whole, and induction gives the hypothesis for
every element and every member value at once.
-/

namespace EventRelay.Json

/-- Induction over a value, with the hypothesis for all elements and all member values. -/
@[elab_as_elim, induction_eliminator]
theorem inductionOn {motive : Json → Prop} (null : motive .null)
    (boolean : ∀ value, motive (.boolean value)) (number : ∀ value, motive (.number value))
    (text : ∀ value, motive (.text value))
    (array : ∀ items, (∀ item ∈ items, motive item) → motive (.array items))
    (object : ∀ members, (∀ member ∈ members, motive member.2) → motive (.object members)) :
    ∀ value, motive value
  | .null => null
  | .boolean value => boolean value
  | .number value => number value
  | .text value => text value
  | .array items => array items fun item member =>
    have := List.sizeOf_lt_of_mem member
    inductionOn null boolean number text array object item
  | .object members => object members fun member present =>
    have := List.sizeOf_lt_of_mem present
    have : sizeOf member.2 < sizeOf member := by cases member; simp
    inductionOn null boolean number text array object member.2
termination_by value => sizeOf value

/-! ## Strings and numbers of a value -/

mutual

/-- All strings of a value, at every depth: texts and names of members. -/
def texts : Json → List String
  | .null => []
  | .boolean _ => []
  | .number _ => []
  | .text value => [value]
  | .array items => textsOfItems items
  | .object members => textsOfMembers members

/-- All strings of the elements of an array. -/
def textsOfItems : List Json → List String
  | [] => []
  | item :: rest => item.texts ++ textsOfItems rest

/-- All strings of the members of an object. -/
def textsOfMembers : List (String × Json) → List String
  | [] => []
  | (name, value) :: rest => name :: (value.texts ++ textsOfMembers rest)

end

mutual

/-- All numbers of a value, at every depth. -/
def numbers : Json → List Number
  | .null => []
  | .boolean _ => []
  | .number value => [value]
  | .text _ => []
  | .array items => numbersOfItems items
  | .object members => numbersOfMembers members

/-- All numbers of the elements of an array. -/
def numbersOfItems : List Json → List Number
  | [] => []
  | item :: rest => item.numbers ++ numbersOfItems rest

/-- All numbers of the members of an object. -/
def numbersOfMembers : List (String × Json) → List Number
  | [] => []
  | (_, value) :: rest => value.numbers ++ numbersOfMembers rest

end

mutual

/-- The value with every string replaced, the names of members included. -/
def mapTexts (change : String → String) : Json → Json
  | .null => .null
  | .boolean value => .boolean value
  | .number value => .number value
  | .text value => .text (change value)
  | .array items => .array (mapTextsOfItems change items)
  | .object members => .object (mapTextsOfMembers change members)

/-- The elements of an array with every string replaced. -/
def mapTextsOfItems (change : String → String) : List Json → List Json
  | [] => []
  | item :: rest => item.mapTexts change :: mapTextsOfItems change rest

/-- The members of an object with every string replaced. -/
def mapTextsOfMembers (change : String → String) : List (String × Json) → List (String × Json)
  | [] => []
  | (name, value) :: rest => (change name, value.mapTexts change) :: mapTextsOfMembers change rest

end

mutual

/-- The value with every number replaced. -/
def mapNumbers (change : Number → Number) : Json → Json
  | .null => .null
  | .boolean value => .boolean value
  | .number value => .number (change value)
  | .text value => .text value
  | .array items => .array (mapNumbersOfItems change items)
  | .object members => .object (mapNumbersOfMembers change members)

/-- The elements of an array with every number replaced. -/
def mapNumbersOfItems (change : Number → Number) : List Json → List Json
  | [] => []
  | item :: rest => item.mapNumbers change :: mapNumbersOfItems change rest

/-- The members of an object with every number replaced. -/
def mapNumbersOfMembers (change : Number → Number) : List (String × Json) → List (String × Json)
  | [] => []
  | (name, value) :: rest =>
    (name, value.mapNumbers change) :: mapNumbersOfMembers change rest

end

/-- The strings of an array are those of its elements. -/
@[simp] theorem texts_array (items : List Json) : (array items).texts = items.flatMap texts := by
  rw [texts]
  induction items with
  | nil => rfl
  | cons item rest inductionHypothesis => rw [textsOfItems, inductionHypothesis, List.flatMap_cons]

/-- The strings of an object are the names and the strings of the values. -/
@[simp] theorem texts_object (members : List (String × Json)) :
    (object members).texts = members.flatMap fun member => member.1 :: member.2.texts := by
  rw [texts]
  induction members with
  | nil => rfl
  | cons member rest inductionHypothesis =>
    rw [textsOfMembers, inductionHypothesis, List.flatMap_cons, List.cons_append]

/-- The numbers of an array are those of its elements. -/
@[simp] theorem numbers_array (items : List Json) :
    (array items).numbers = items.flatMap numbers := by
  rw [numbers]
  induction items with
  | nil => rfl
  | cons item rest inductionHypothesis =>
    rw [numbersOfItems, inductionHypothesis, List.flatMap_cons]

/-- The numbers of an object are those of its values. -/
@[simp] theorem numbers_object (members : List (String × Json)) :
    (object members).numbers = members.flatMap fun member => member.2.numbers := by
  rw [numbers]
  induction members with
  | nil => rfl
  | cons member rest inductionHypothesis =>
    rw [numbersOfMembers, inductionHypothesis, List.flatMap_cons]

theorem mem_numbers_array {items : List Json} {item : Json} (member : item ∈ items)
    {number : Number} (found : number ∈ item.numbers) : number ∈ (array items).numbers := by
  rw [numbers_array]
  exact List.mem_flatMap.mpr ⟨item, member, found⟩

theorem mem_numbers_object {members : List (String × Json)} {member : String × Json}
    (present : member ∈ members) {number : Number} (found : number ∈ member.2.numbers) :
    number ∈ (object members).numbers := by
  rw [numbers_object]
  exact List.mem_flatMap.mpr ⟨member, present, found⟩

theorem mem_texts_array {items : List Json} {item : Json} (member : item ∈ items) {text : String}
    (found : text ∈ item.texts) : text ∈ (array items).texts := by
  rw [texts_array]
  exact List.mem_flatMap.mpr ⟨item, member, found⟩

/-- The strings of a member are its name and those of its value. -/
theorem mem_texts_object {members : List (String × Json)} {member : String × Json}
    (present : member ∈ members) {text : String} (found : text ∈ member.1 :: member.2.texts) :
    text ∈ (object members).texts := by
  rw [texts_object]
  exact List.mem_flatMap.mpr ⟨member, present, found⟩

/-- The strings of an array are replaced element by element. -/
@[simp] theorem mapTexts_array (change : String → String) (items : List Json) :
    (array items).mapTexts change = array (items.map (mapTexts change)) := by
  rw [mapTexts]
  congr 1
  induction items with
  | nil => rfl
  | cons item rest inductionHypothesis =>
    rw [mapTextsOfItems, inductionHypothesis, List.map_cons]

/-- The strings of an object are replaced member by member. -/
@[simp] theorem mapTexts_object (change : String → String) (members : List (String × Json)) :
    (object members).mapTexts change =
      object (members.map fun member => (change member.1, member.2.mapTexts change)) := by
  rw [mapTexts]
  congr 1
  induction members with
  | nil => rfl
  | cons member rest inductionHypothesis =>
    rw [mapTextsOfMembers, inductionHypothesis, List.map_cons]

/-- Replacing strings twice is replacing them once by the composition. -/
theorem mapTexts_mapTexts (first second : String → String) (value : Json) :
    (value.mapTexts first).mapTexts second = value.mapTexts (second ∘ first) := by
  induction value with
  | null => rfl
  | boolean _ => rfl
  | number _ => rfl
  | text _ => rfl
  | array items inductionHypothesis => simpa using inductionHypothesis
  | object members inductionHypothesis =>
    simp only [mapTexts_object, List.map_map]
    congr 1
    refine List.map_congr_left fun member present => ?_
    simp [inductionHypothesis member present]

/-- A list is left alone by a map exactly when all of its elements are. -/
theorem map_eq_self_iff {α : Type} {change : α → α} {items : List α} :
    items.map change = items ↔ ∀ item ∈ items, change item = item := by
  induction items with
  | nil => simp
  | cons item rest inductionHypothesis =>
    rw [List.map_cons, List.cons_eq_cons, inductionHypothesis, List.forall_mem_cons]

/-- A value is left alone exactly when all of its strings are. -/
theorem mapTexts_eq_self_iff (change : String → String) (value : Json) :
    value.mapTexts change = value ↔ ∀ text ∈ value.texts, change text = text := by
  induction value with
  | null => simp [mapTexts, texts]
  | boolean _ => simp [mapTexts, texts]
  | number _ => simp [mapTexts, texts]
  | text _ => simp [mapTexts, texts]
  | array items inductionHypothesis =>
    simp only [mapTexts_array, texts_array, Json.array.injEq, List.forall_mem_flatMap,
      map_eq_self_iff]
    exact forall₂_congr inductionHypothesis
  | object members inductionHypothesis =>
    simp only [mapTexts_object, texts_object, Json.object.injEq, List.forall_mem_flatMap,
      List.forall_mem_cons, map_eq_self_iff, Prod.ext_iff]
    exact forall₂_congr fun member present => and_congr_right' (inductionHypothesis member present)

/-- The numbers of an array are replaced element by element. -/
@[simp] theorem mapNumbers_array (change : Number → Number) (items : List Json) :
    (array items).mapNumbers change = array (items.map (mapNumbers change)) := by
  rw [mapNumbers]
  congr 1
  induction items with
  | nil => rfl
  | cons item rest inductionHypothesis =>
    rw [mapNumbersOfItems, inductionHypothesis, List.map_cons]

/-- The numbers of an object are replaced member by member. -/
@[simp] theorem mapNumbers_object (change : Number → Number) (members : List (String × Json)) :
    (object members).mapNumbers change =
      object (members.map fun member => (member.1, member.2.mapNumbers change)) := by
  rw [mapNumbers]
  congr 1
  induction members with
  | nil => rfl
  | cons member rest inductionHypothesis =>
    rw [mapNumbersOfMembers, inductionHypothesis, List.map_cons]

/-- A value is left alone where all of its numbers are. -/
theorem mapNumbers_eq_self {change : Number → Number} {value : Json}
    (same : ∀ number ∈ value.numbers, change number = number) :
    value.mapNumbers change = value := by
  induction value with
  | null => rfl
  | boolean _ => rfl
  | number value => rw [mapNumbers, same value (by simp [numbers])]
  | text _ => rfl
  | array items inductionHypothesis =>
    rw [mapNumbers_array, map_eq_self_iff.mpr fun item member =>
      inductionHypothesis item member fun number found =>
        same number (mem_numbers_array member found)]
  | object members inductionHypothesis =>
    rw [mapNumbers_object, map_eq_self_iff.mpr fun member present => by
      rw [inductionHypothesis member present fun number found =>
        same number (mem_numbers_object present found)]]

/-- Replacing numbers leaves the strings alone. -/
@[simp] theorem texts_mapNumbers (change : Number → Number) (value : Json) :
    (value.mapNumbers change).texts = value.texts := by
  induction value with
  | null => rfl
  | boolean _ => rfl
  | number _ => rfl
  | text _ => rfl
  | array items inductionHypothesis =>
    simpa [List.flatMap_map] using List.flatMap_congr inductionHypothesis
  | object members inductionHypothesis =>
    simp only [mapNumbers_object, texts_object, List.flatMap_map]
    exact List.flatMap_congr fun member present => by rw [inductionHypothesis member present]

/-- Replacing strings leaves the numbers alone. -/
@[simp] theorem numbers_mapTexts (change : String → String) (value : Json) :
    (value.mapTexts change).numbers = value.numbers := by
  induction value with
  | null => rfl
  | boolean _ => rfl
  | number _ => rfl
  | text _ => rfl
  | array items inductionHypothesis =>
    simpa [List.flatMap_map] using List.flatMap_congr inductionHypothesis
  | object members inductionHypothesis =>
    simpa [List.flatMap_map] using List.flatMap_congr inductionHypothesis

/-- The strings after replacing are the replaced ones. -/
@[simp] theorem texts_mapTexts (change : String → String) (value : Json) :
    (value.mapTexts change).texts = value.texts.map change := by
  induction value with
  | null => rfl
  | boolean _ => rfl
  | number _ => rfl
  | text _ => rfl
  | array items inductionHypothesis =>
    simpa [List.flatMap_map, List.map_flatMap] using List.flatMap_congr inductionHypothesis
  | object members inductionHypothesis =>
    simp only [mapTexts_object, texts_object, List.flatMap_map, List.map_flatMap, List.map_cons]
    exact List.flatMap_congr fun member present => by rw [inductionHypothesis member present]

/-! ## Depth and normal form -/

/-- An array is deeper than every one of its elements, and no deeper than that takes. -/
theorem depth_array_le_iff {items : List Json} {bound : Nat} :
    (array items).depth ≤ bound ↔ 0 < bound ∧ ∀ item ∈ items, item.depth < bound := by
  rw [depth]
  induction items with
  | nil => simp [depthOfItems, Nat.succ_le_iff]
  | cons item rest inductionHypothesis =>
    have parts : max item.depth (depthOfItems rest) + 1 ≤ bound ↔
        item.depth < bound ∧ depthOfItems rest + 1 ≤ bound := by omega
    rw [depthOfItems, parts, inductionHypothesis, List.forall_mem_cons, and_left_comm]

/-- An object is deeper than every one of its values, and no deeper than that takes. -/
theorem depth_object_le_iff {members : List (String × Json)} {bound : Nat} :
    (object members).depth ≤ bound ↔ 0 < bound ∧ ∀ member ∈ members, member.2.depth < bound := by
  rw [depth]
  induction members with
  | nil => simp [depthOfMembers, Nat.succ_le_iff]
  | cons member rest inductionHypothesis =>
    have parts : max member.2.depth (depthOfMembers rest) + 1 ≤ bound ↔
        member.2.depth < bound ∧ depthOfMembers rest + 1 ≤ bound := by omega
    rw [depthOfMembers, parts, inductionHypothesis, List.forall_mem_cons, and_left_comm]

theorem depth_array_pos (items : List Json) : 0 < (array items).depth :=
  (depth_array_le_iff.mp le_rfl).1

theorem depth_object_pos (members : List (String × Json)) : 0 < (object members).depth :=
  (depth_object_le_iff.mp le_rfl).1

theorem depth_lt_array {items : List Json} {item : Json} (member : item ∈ items) :
    item.depth < (array items).depth :=
  (depth_array_le_iff.mp le_rfl).2 item member

theorem depth_lt_object {members : List (String × Json)} {member : String × Json}
    (present : member ∈ members) : member.2.depth < (object members).depth :=
  (depth_object_le_iff.mp le_rfl).2 member present

/-- Replacing strings makes no value deeper. -/
theorem depth_mapTexts_le (change : String → String) (value : Json) :
    (value.mapTexts change).depth ≤ value.depth := by
  induction value with
  | null => exact le_rfl
  | boolean _ => exact le_rfl
  | number _ => exact le_rfl
  | text _ => exact le_rfl
  | array items inductionHypothesis =>
    rw [mapTexts_array, depth_array_le_iff, List.forall_mem_map]
    exact ⟨depth_array_pos items, fun item member =>
      lt_of_le_of_lt (inductionHypothesis item member) (depth_lt_array member)⟩
  | object members inductionHypothesis =>
    rw [mapTexts_object, depth_object_le_iff, List.forall_mem_map]
    exact ⟨depth_object_pos members, fun member present =>
      lt_of_le_of_lt (inductionHypothesis member present) (depth_lt_object present)⟩

/-- Replacing numbers makes no value deeper and none less deep. -/
@[simp] theorem depth_mapNumbers (change : Number → Number) (value : Json) :
    (value.mapNumbers change).depth = value.depth := by
  induction value with
  | null => rfl
  | boolean _ => rfl
  | number _ => rfl
  | text _ => rfl
  | array items inductionHypothesis =>
    refine eq_of_forall_ge_iff fun bound => ?_
    rw [mapNumbers_array, depth_array_le_iff, depth_array_le_iff, List.forall_mem_map]
    exact and_congr_right' (forall₂_congr fun item member => by
      rw [inductionHypothesis item member])
  | object members inductionHypothesis =>
    refine eq_of_forall_ge_iff fun bound => ?_
    rw [mapNumbers_object, depth_object_le_iff, depth_object_le_iff, List.forall_mem_map]
    exact and_congr_right' (forall₂_congr fun member present => by
      rw [inductionHypothesis member present])

/-- The normal form of an array is that of its elements. -/
@[simp] theorem normal_array (items : List Json) :
    (array items).normal = array (items.map normal) := by
  rw [normal]
  congr 1
  induction items with
  | nil => rfl
  | cons item rest inductionHypothesis => rw [normalItems, inductionHypothesis, List.map_cons]

/-- The normal form of an object sorts its members with their values in normal form. -/
@[simp] theorem normal_object (members : List (String × Json)) :
    (object members).normal =
      object (sortMembers (members.map fun member => (member.1, member.2.normal))) := by
  rw [normal]
  congr 2
  induction members with
  | nil => rfl
  | cons member rest inductionHypothesis => rw [normalMembers, inductionHypothesis, List.map_cons]

end EventRelay.Json
