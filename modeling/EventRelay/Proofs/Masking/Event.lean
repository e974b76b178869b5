import EventRelay.Masking.Masker
import EventRelay.Proofs.Json.Normal
import EventRelay.Proofs.Masking.Written

/-!
# Masking an event is masking its strings

The masked form of an event is said on the event itself: every string is masked, and of the members
of one object whose masked names are equal, the one stays whose name was greatest. The masker works
on the text of the event instead. It comes to the same, because replacing commutes with writing and
because reading keeps the last member of a name, which in an event is the one whose name was
greatest.
-/

namespace EventRelay

open EventRelay.Masking (Pattern CharClass socialSecurity telephone mark maskText escapesToDigit
  isPersonal)

/-! ## Occurrences -/

namespace Masking

/-- A list of characters that has one character of each class of a pattern, in order. -/
def Pattern.Matches (pattern : Pattern) (chars : List Char) : Prop :=
  List.Forall₂ (fun accepts c => accepts c = true) pattern chars

/-- A text with a personal number in it. -/
def HoldsPersonal (text : String) : Prop :=
  ∃ pattern ∈ [socialSecurity, telephone], ∃ before found after,
    text.toList = before ++ found ++ after ∧ pattern.Matches found

/-- A pattern matches at the beginning exactly when the first characters match it. -/
theorem Pattern.startsAt_iff (pattern : Pattern) (chars : List Char) :
    pattern.startsAt chars = true ↔
      ∃ found after, chars = found ++ after ∧ pattern.Matches found := by
  induction pattern generalizing chars with
  | nil => simp [startsAt, Matches]
  | cons accepts pattern inductionHypothesis =>
    constructor
    · intro starts
      cases chars with
      | nil => simp [startsAt] at starts
      | cons c rest =>
        rw [startsAt, Bool.and_eq_true] at starts
        obtain ⟨found, after, rfl, matched⟩ := (inductionHypothesis rest).mp starts.2
        exact ⟨c :: found, after, rfl, .cons starts.1 matched⟩
    · rintro ⟨found, after, rfl, matched⟩
      cases matched with
      | @cons _ c _ others accepted matched =>
        rw [List.cons_append, startsAt, Bool.and_eq_true]
        exact ⟨accepted, (inductionHypothesis _).mpr ⟨others, after, rfl, matched⟩⟩

/-- A pattern occurs exactly when some part of the text matches it. -/
theorem Pattern.occursIn_iff (pattern : Pattern) (chars : List Char) :
    pattern.occursIn chars = true ↔
      ∃ before found after, chars = before ++ found ++ after ∧ pattern.Matches found := by
  induction chars with
  | nil =>
    rw [occursIn, List.isEmpty_iff]
    constructor
    · rintro rfl
      exact ⟨[], [], [], rfl, .nil⟩
    · rintro ⟨before, found, after, empty, matched⟩
      obtain ⟨-, rfl, -⟩ : before = [] ∧ found = [] ∧ after = [] := by simpa using empty.symm
      cases matched
      rfl
  | cons c rest inductionHypothesis =>
    rw [occursIn, Bool.or_eq_true, inductionHypothesis, startsAt_iff]
    constructor
    · rintro (⟨found, after, split, matched⟩ | ⟨before, found, after, rfl, matched⟩)
      · exact ⟨[], found, after, split, matched⟩
      · exact ⟨c :: before, found, after, rfl, matched⟩
    · rintro ⟨before, found, after, split, matched⟩
      cases before with
      | nil => exact .inl ⟨found, after, split, matched⟩
      | cons other before =>
        obtain ⟨rfl, rest⟩ := List.cons_eq_cons.mp split
        exact .inr ⟨before, found, after, rest, matched⟩

/-- The search finds a personal number exactly when there is one. -/
theorem isPersonal_iff (text : String) : isPersonal text.toList = true ↔ HoldsPersonal text := by
  rw [isPersonal, Bool.or_eq_true, Pattern.occursIn_iff, Pattern.occursIn_iff]
  simp [HoldsPersonal]

end Masking

/-! ## The masked form of an event -/

namespace Json

/-- The members under their changed names, in increasing order; of those whose names become equal,
the one stays whose name was greatest. -/
def renameMembers (change : String → String) (members : List (String × Json)) :
    List (String × Json) :=
  let kept := members.filter fun member =>
    members.all fun other => change other.1 = change member.1 → other.1 ≤ member.1
  (kept.map fun member => (change member.1, member.2)).insertionSort fun first second =>
    first.1 ≤ second.1

mutual

/-- The event with every string masked, the names of members included. -/
def masked : Json → Json
  | .null => .null
  | .boolean value => .boolean value
  | .number value => .number value
  | .text value => .text (maskText value)
  | .array items => .array (maskedItems items)
  | .object members => .object (renameMembers maskText (maskedMembers members))

/-- The elements of an array with every string masked. -/
def maskedItems : List Json → List Json
  | [] => []
  | item :: rest => item.masked :: maskedItems rest

/-- The members of an object with every string in their values masked. -/
def maskedMembers : List (String × Json) → List (String × Json)
  | [] => []
  | (name, value) :: rest => (name, value.masked) :: maskedMembers rest

end

theorem maskedItems_eq_map (items : List Json) : maskedItems items = items.map masked := by
  induction items with
  | nil => rfl
  | cons item rest inductionHypothesis => rw [maskedItems, inductionHypothesis, List.map_cons]

theorem maskedMembers_eq_map (members : List (String × Json)) :
    maskedMembers members = members.map fun member => (member.1, member.2.masked) := by
  induction members with
  | nil => rfl
  | cons member rest inductionHypothesis =>
    rw [maskedMembers, inductionHypothesis, List.map_cons]

/-! ## Names that become equal -/

/-- A member whose name is the greatest of those that are changed to the same name. -/
def KeptAs (change : String → String) (members : List (String × Json)) (name : String)
    (value : Json) : Prop :=
  ∃ source, (source, value) ∈ members ∧ change source = name ∧
    ∀ other ∈ members, change other.1 = name → other.1 ≤ source

variable {change : String → String} {members : List (String × Json)}

/-- A first member is not kept where a later one is changed to the same name. -/
theorem keptAs_cons_of_present {head : String × Json} {rest : List (String × Json)}
    (sorted : Sorted (head :: rest)) {name : String}
    (present : ∃ other ∈ rest, change other.1 = name) (value : Json) :
    KeptAs change (head :: rest) name value ↔ KeptAs change rest name value := by
  obtain ⟨after, -⟩ := sorted_cons.mp sorted
  obtain ⟨later, inLater, same⟩ := present
  constructor
  · rintro ⟨source, inAll, renamed, above⟩
    rw [List.forall_mem_cons] at above
    rcases List.mem_cons.mp inAll with rfl | inRest
    · exact absurd (after later inLater) (not_lt.mpr (above.2 later inLater same))
    · exact ⟨source, inRest, renamed, above.2⟩
  · rintro ⟨source, inRest, renamed, above⟩
    refine ⟨source, List.mem_cons_of_mem _ inRest, renamed, ?_⟩
    rw [List.forall_mem_cons]
    exact ⟨fun _ => le_of_lt (after _ inRest), above⟩

/-- A first member is kept where no later one is changed to the same name. -/
theorem keptAs_cons_of_absent {head : String × Json} {rest : List (String × Json)} {name : String}
    (absent : ∀ other ∈ rest, change other.1 ≠ name) (value : Json) :
    KeptAs change (head :: rest) name value ↔ change head.1 = name ∧ head.2 = value := by
  constructor
  · rintro ⟨source, inAll, renamed, -⟩
    rcases List.mem_cons.mp inAll with rfl | inRest
    · exact ⟨renamed, rfl⟩
    · exact absurd renamed (absent _ inRest)
  · rintro ⟨renamed, rfl⟩
    refine ⟨head.1, List.mem_cons_self, renamed, ?_⟩
    rw [List.forall_mem_cons]
    exact ⟨fun _ => le_rfl, fun other inRest same => absurd same (absent other inRest)⟩

/-- The last member of a changed name is the one whose name was greatest. -/
theorem lookup_reverse_map_iff (sorted : Sorted members) (name : String) (value : Json) :
    (members.map fun member => (change member.1, member.2)).reverse.lookup name = some value ↔
      KeptAs change members name value := by
  induction members generalizing value with
  | nil => simp [KeptAs]
  | cons head rest inductionHypothesis =>
    have later := inductionHypothesis (sorted_cons.mp sorted).2
    rw [List.map_cons, List.reverse_cons, List.lookup_append]
    cases found : (rest.map fun member => (change member.1, member.2)).reverse.lookup name with
    | some last =>
      rw [found] at later
      obtain ⟨source, present, same, -⟩ := (later last).mp rfl
      rw [Option.some_or, later, keptAs_cons_of_present sorted ⟨_, present, same⟩]
    | none =>
      have absent : ∀ other ∈ rest, change other.1 ≠ name := by
        intro other inRest renamed
        have unlike := List.lookup_eq_none_iff.mp found (change other.1, other.2)
          (List.mem_reverse.mpr (List.mem_map_of_mem inRest))
        simp [renamed] at unlike
      rw [Option.none_or, lookup_cons_eq_ite, List.lookup_nil, keptAs_cons_of_absent absent]
      simp [eq_comm]

/-- The renamed members are the kept ones. -/
theorem mem_renameMembers_iff (name : String) (value : Json) :
    (name, value) ∈ renameMembers change members ↔ KeptAs change members name value := by
  simp only [renameMembers, List.mem_insertionSort, List.mem_map, List.mem_filter, List.all_eq_true,
    decide_eq_true_eq, Prod.exists, Prod.mk.injEq, KeptAs]
  constructor
  · rintro ⟨source, held, ⟨present, greatest⟩, rfl, rfl⟩
    exact ⟨source, present, rfl, greatest⟩
  · rintro ⟨source, present, rfl, greatest⟩
    exact ⟨source, value, ⟨present, greatest⟩, rfl, rfl⟩

/-- The renamed members are in order. -/
theorem sorted_renameMembers (sorted : Sorted members) : Sorted (renameMembers change members) := by
  unfold renameMembers
  extract_lets kept
  have distinct : (kept.map fun member => (change member.1, member.2)).Pairwise
      fun first second => first.1 ≠ second.1 := by
    refine List.pairwise_map.mpr (List.Pairwise.imp_of_mem ?_ (sorted.filter _))
    intro first second firstKept secondKept before same
    have greatest := (List.mem_filter.mp firstKept).2
    rw [List.all_eq_true] at greatest
    have above := greatest second (List.mem_filter.mp secondKept).1
    rw [decide_eq_true_eq] at above
    exact absurd before (not_lt.mpr (above same.symm))
  have total : Std.Total fun first second : String × Json => first.1 ≤ second.1 :=
    ⟨fun first second => le_total first.1 second.1⟩
  have transitive : IsTrans (String × Json) fun first second => first.1 ≤ second.1 :=
    ⟨fun _ _ _ => le_trans⟩
  have ordered := List.pairwise_insertionSort (fun first second => first.1 ≤ second.1)
    (kept.map fun member => (change member.1, member.2))
  have apart := ((List.perm_insertionSort (fun first second => first.1 ≤ second.1)
    (kept.map fun member => (change member.1, member.2))).pairwise_iff
      (fun unlike => Ne.symm unlike)).mpr distinct
  exact (ordered.and apart).imp fun both => lt_of_le_of_ne both.1 both.2

/-- Sorting members under changed names keeps those whose names were greatest. -/
theorem sortMembers_map_change (sorted : Sorted members) :
    sortMembers (members.map fun member => (change member.1, member.2)) =
      renameMembers change members := by
  refine (sorted_sortMembers _).ext (sorted_renameMembers sorted) fun name => ?_
  ext value
  rw [lookup_sortMembers, lookup_reverse_map_iff sorted,
    ← (sorted_renameMembers sorted).mem_iff_lookup, mem_renameMembers_iff]

/-- Masking the strings of an event in place comes to its masked form once it is in normal form. -/
theorem normal_mapTexts_maskText {event : Json} (normal : event.Normal) :
    (event.mapTexts maskText).normal = event.masked := by
  induction event with
  | null => rfl
  | boolean _ => rfl
  | number _ => rfl
  | text _ => rfl
  | array items inductionHypothesis =>
    rw [mapTexts_array, normal_array, masked, maskedItems_eq_map, List.map_map]
    congr 1
    exact List.map_congr_left fun item member =>
      inductionHypothesis item member (normal.item member)
  | object members inductionHypothesis =>
    have sorted : Sorted (members.map fun member => (member.1, member.2.masked)) :=
      List.pairwise_map.mpr normal.sorted
    rw [mapTexts_object, normal_object, masked, maskedMembers_eq_map,
      ← sortMembers_map_change sorted, List.map_map, List.map_map]
    congr 2
    refine List.map_congr_left fun member present => ?_
    simp only [Function.comp_apply, inductionHypothesis member present (normal.member present)]

/-! ## The masker -/

/-- A personal number is in the text of an event exactly when one is in a string of it. -/
theorem isPersonal_write {event : Json} (plain : event.Plain) (shallow : event.depth ≤ maxDepth) :
    isPersonal event.write.toList = event.texts.any fun text => isPersonal text.toList := by
  rw [isPersonal, Masking.hyphenated_socialSecurity.occursIn_write plain shallow,
    Masking.hyphenated_telephone.occursIn_write plain shallow, Bool.eq_iff_iff]
  simp only [isPersonal, Bool.or_eq_true, List.any_eq_true]
  constructor
  · rintro (⟨text, member, occurs⟩ | ⟨text, member, occurs⟩)
    · exact ⟨text, member, .inl occurs⟩
    · exact ⟨text, member, .inr occurs⟩
  · rintro ⟨text, member, occurs | occurs⟩
    · exact .inl ⟨text, member, occurs⟩
    · exact .inr ⟨text, member, occurs⟩

/-- Masking the text of an event writes the event with its strings masked. -/
theorem maskText_write {event : Json} (plain : event.Plain) :
    maskText event.write = (event.mapTexts maskText).write := by
  rw [Masking.maskText_eq, Function.comp_apply,
    Masking.hyphenated_socialSecurity.replaceText_write plain,
    Masking.hyphenated_telephone.replaceText_write (plain.mapTexts socialSecurity),
    mapTexts_mapTexts]

end Json

namespace Masker

/-- The masker gives the masked form of an event where a string of it holds a personal number. -/
theorem maskEvent_eq_ite {event : Json} (normal : event.Normal) (plain : event.Plain)
    (shallow : event.depth ≤ Json.maxDepth) :
    maskEvent event =
      if event.texts.any fun text => isPersonal text.toList then .ok (some event.masked)
      else .ok none := by
  have readable : (event.mapTexts maskText).Readable := by
    refine Json.readable_of_integers ?_
    rw [Json.numbers_mapTexts]
    exact plain.integers
  have parsed := Json.parseText_write readable
    ((Json.depth_mapTexts_le maskText event).trans shallow)
  rw [Json.normal_mapTexts_maskText normal] at parsed
  rw [maskEvent, Masking.maskText?_eq_ite, Json.isPersonal_write plain shallow,
    Json.maskText_write plain]
  split
  · rename_i absent
    split at absent
    · exact absurd absent (Option.some_ne_none _)
    · rename_i nothing
      rw [if_neg nothing]
  · rename_i text present
    split at present
    · rename_i personal
      obtain rfl := Option.some.inj present
      rw [parsed, if_pos personal]
      rfl
    · exact absurd present.symm (Option.some_ne_none _)

/-- Counting does not change what comes of an event. -/
theorem mask_fst (masker : Masker) (event : Json) : (masker.mask event).1 = maskEvent event := by
  unfold mask
  rcases maskEvent event with _ | _ | _ <;> rfl

/-- Masking gives nothing exactly when no string of the event holds a personal number, and the
masked form of the event otherwise. -/
theorem mask_eq_masked (masker : Masker) {event : Json} (normal : event.Normal)
    (shallow : event.depth ≤ 127)
    (integers : ∀ number ∈ event.numbers, number.isInteger = true)
    (controls : ∀ text ∈ event.texts, ∀ c ∈ text.toList, escapesToDigit c = false) :
    ((masker.mask event).1 = .ok none ↔ ∀ text ∈ event.texts, ¬ Masking.HoldsPersonal text) ∧
      ((∃ text ∈ event.texts, Masking.HoldsPersonal text) →
        (masker.mask event).1 = .ok (some event.masked)) := by
  have personal : (event.texts.any fun text => isPersonal text.toList) = true ↔
      ∃ text ∈ event.texts, Masking.HoldsPersonal text := by
    simp only [List.any_eq_true, Masking.isPersonal_iff]
  rw [mask_fst, maskEvent_eq_ite normal ⟨integers, controls⟩ shallow]
  refine ⟨?_, fun holds => if_pos (personal.mpr holds)⟩
  by_cases holds : ∃ text ∈ event.texts, Masking.HoldsPersonal text
  · rw [if_pos (personal.mpr holds)]
    obtain ⟨text, member, held⟩ := holds
    exact ⟨fun nothing => by simp at nothing, fun none => absurd held (none text member)⟩
  · rw [if_neg (mt personal.mp holds)]
    exact ⟨fun _ text member held => holds ⟨text, member, held⟩, fun _ => rfl⟩

/-- An event with two names that are masked to the same one. -/
def twoNumbers : Json :=
  .object [("123-45-6789", .boolean true),
    ("321-45-6789", .array [.text "call 555-123-4567\n",
      .number (.integer ⟨-7, by decide, by decide⟩)]),
    ("id", .null)]

/-- Of the two names the greater one keeps its value. -/
theorem mask_twoNumbers :
    twoNumbers.Normal ∧ twoNumbers.depth ≤ 127 ∧
      (∀ number ∈ twoNumbers.numbers, number.isInteger = true) ∧
      (∀ text ∈ twoNumbers.texts, ∀ c ∈ text.toList, escapesToDigit c = false) ∧
      (∃ text ∈ twoNumbers.texts, Masking.HoldsPersonal text) ∧
      (({} : Masker).mask twoNumbers).1 = .ok (some (.object [("###", .array [.text "call ###\n",
        .number (.integer ⟨-7, by decide, by decide⟩)]), ("id", .null)])) := by
  have normal : twoNumbers.Normal := rfl
  have shallow : twoNumbers.depth ≤ 127 := by decide
  have integers : ∀ number ∈ twoNumbers.numbers, number.isInteger = true := by decide
  have controls : ∀ text ∈ twoNumbers.texts, ∀ c ∈ text.toList, escapesToDigit c = false := by
    have none : (twoNumbers.texts.all fun text =>
        text.toList.all fun c => !escapesToDigit c) = true := rfl
    simpa only [List.all_eq_true, Bool.not_eq_true'] using none
  have personal : ∃ text ∈ twoNumbers.texts, Masking.HoldsPersonal text :=
    ⟨"123-45-6789", by decide, (Masking.isPersonal_iff _).mp (by decide)⟩
  have masked : twoNumbers.masked = .object [("###", .array [.text "call ###\n",
      .number (.integer ⟨-7, by decide, by decide⟩)]), ("id", .null)] := rfl
  have result := (mask_eq_masked {} normal shallow integers controls).2 personal
  rw [masked] at result
  exact ⟨normal, shallow, integers, controls, personal, result⟩

end Masker

end EventRelay
