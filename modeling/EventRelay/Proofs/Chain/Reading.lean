import EventRelay.Proofs.Chain
import Mathlib

/-!
# Which chains are read, and how they are printed

Names are taken one after the other, so the first fault in a list of names decides what is reported:
a name that is blank, or one that stands earlier in the list. A text is cut at its commas. A blank
text is a chain without stages, although its only piece is no name.

The names of a chain that is read are trimmed and hold no comma, so the text of the chain is cut
into the same names and read as the same chain.
-/

namespace EventRelay.Chain

/-! ## Faults in lists of names -/

/-- What is wrong with the name at a position: trimmed, it is empty or equal to an earlier one. -/
inductive Fault (names : List String) (position : Nat) : RuleError → Prop
  | empty {raw : String} (here : names[position]? = some raw) (blank : Text.trim raw = "") :
      Fault names position (.emptyStage position)
  | again {raw earlier : String} {place : Nat} (here : names[position]? = some raw)
      (before : place < position) (there : names[place]? = some earlier)
      (same : Text.trim earlier = Text.trim raw) :
      Fault names position (.duplicateStage (Text.trim raw))

/-- A fault with none before it. -/
structure FirstFault (names : List String) (position : Nat) (problem : RuleError) : Prop where
  fault : Fault names position problem
  least : ∀ place < position, ∀ other, ¬ Fault names place other

/-- A list of names in which nothing is wrong. -/
def Faultless (names : List String) : Prop :=
  ∀ position problem, ¬ Fault names position problem

variable {names : List String} {position : Nat} {problem : RuleError}

theorem Fault.position_lt (fault : Fault names position problem) : position < names.length := by
  cases fault with
  | empty here => exact (List.getElem?_eq_some_iff.mp here).1
  | again here => exact (List.getElem?_eq_some_iff.mp here).1

/-- A fault is about the name at its position. -/
theorem Fault.of_getElem? {raw : String} (fault : Fault names position problem)
    (here : names[position]? = some raw) :
    (Text.trim raw = "" ∧ problem = .emptyStage position) ∨
      ((∃ place < position, ∃ earlier, names[place]? = some earlier ∧
        Text.trim earlier = Text.trim raw) ∧ problem = .duplicateStage (Text.trim raw)) := by
  cases fault with
  | empty found blank =>
    obtain rfl := Option.some.inj (here.symm.trans found)
    exact .inl ⟨blank, rfl⟩
  | again found before there same =>
    obtain rfl := Option.some.inj (here.symm.trans found)
    exact .inr ⟨⟨_, before, _, there, same⟩, rfl⟩

/-- A list has one first fault at most. -/
theorem FirstFault.unique {other : Nat} {cause : RuleError}
    (first : FirstFault names position problem) (second : FirstFault names other cause) :
    position = other ∧ problem = cause := by
  obtain earlier | rfl | later := lt_trichotomy position other
  · exact absurd first.fault (second.least position earlier problem)
  · obtain ⟨raw, here⟩ : ∃ raw, names[position]? = some raw :=
      ⟨_, List.getElem?_eq_getElem first.fault.position_lt⟩
    -- Were the name both empty and an earlier one, the earlier one would be at fault before it.
    have filled : (∃ place < position, ∃ earlier, names[place]? = some earlier ∧
        Text.trim earlier = Text.trim raw) → Text.trim raw ≠ "" := by
      rintro ⟨place, before, earlier, there, same⟩ blank
      exact first.least place before _ (.empty there (same.trans blank))
    refine ⟨rfl, ?_⟩
    obtain ⟨blank, rfl⟩ | ⟨repeated, rfl⟩ := first.fault.of_getElem? here
    · obtain ⟨-, rfl⟩ | ⟨repeated, -⟩ := second.fault.of_getElem? here
      · rfl
      · exact absurd blank (filled repeated)
    · obtain ⟨blank, -⟩ | ⟨-, rfl⟩ := second.fault.of_getElem? here
      · exact absurd blank (filled repeated)
      · rfl
  · exact absurd second.fault (first.least other later cause)

/-- Nothing is wrong with a name that is not empty and differs from the names before it. -/
theorem not_fault_of_fresh {front rest : List String} {raw : String}
    (filled : Text.trim raw ≠ "") (fresh : Text.trim raw ∉ front.map Text.trim)
    (problem : RuleError) : ¬ Fault (front ++ raw :: rest) front.length problem := by
  intro fault
  have here : (front ++ raw :: rest)[front.length]? = some raw := by simp
  obtain ⟨empty, -⟩ | ⟨⟨place, before, earlier, there, same⟩, -⟩ := fault.of_getElem? here
  · exact filled empty
  · rw [List.getElem?_append_left before] at there
    exact fresh (List.mem_map.mpr ⟨earlier, List.mem_of_getElem? there, same⟩)

/-- Such a name is taken, and joins the ones that later names are held against. -/
theorem accept_of_fresh {taken rest : List String} {raw : String} (filled : Text.trim raw ≠ "")
    (fresh : Text.trim raw ∉ taken) :
    accept taken (raw :: rest) =
      (accept (taken ++ [Text.trim raw]) rest).map (Text.trim raw :: ·) := by
  simp only [accept, String.isEmpty_iff]
  rw [if_neg filled, if_neg fresh]

/-- Names after others without a fault are taken if nothing is wrong with them either, and the first
fault is reported otherwise. -/
theorem accept_cases (front rest : List String)
    (fine : ∀ place < front.length, ∀ problem, ¬ Fault (front ++ rest) place problem) :
    (Faultless (front ++ rest) ∧ ∃ stages, accept (front.map Text.trim) rest = .ok stages) ∨
      ∃ position problem, FirstFault (front ++ rest) position problem ∧
        accept (front.map Text.trim) rest = .error problem := by
  induction rest generalizing front with
  | nil =>
    refine .inl ⟨fun position problem fault => ?_, [], rfl⟩
    have inside := fault.position_lt
    rw [List.append_nil] at inside
    exact fine position inside problem fault
  | cons raw rest inductionHypothesis =>
    have here : (front ++ raw :: rest)[front.length]? = some raw := by simp
    by_cases blank : Text.trim raw = ""
    · refine .inr ⟨front.length, _, ⟨.empty here blank, fine⟩, ?_⟩
      simp [accept, blank]
    by_cases taken : Text.trim raw ∈ front.map Text.trim
    · obtain ⟨earlier, inside, same⟩ := List.mem_map.mp taken
      obtain ⟨place, before, there⟩ := List.getElem_of_mem inside
      have found : (front ++ raw :: rest)[place]? = some earlier := by
        rw [List.getElem?_append_left before, List.getElem?_eq_getElem before, there]
      refine .inr ⟨front.length, _, ⟨.again here before found same, fine⟩, ?_⟩
      simp only [accept, String.isEmpty_iff]
      rw [if_neg blank, if_pos taken]
    -- The name joins the ones in front, and the rest is judged behind them.
    have together : front ++ [raw] ++ rest = front ++ raw :: rest := by simp
    have later := inductionHypothesis (front ++ [raw]) ?_
    · rw [together, List.map_append, List.map_singleton] at later
      rw [accept_of_fresh blank taken]
      obtain ⟨faultless, stages, accepted⟩ | ⟨position, problem, first, refused⟩ := later
      · exact .inl ⟨faultless, _, congrArg (Except.map _) accepted⟩
      · exact .inr ⟨position, problem, first, congrArg (Except.map _) refused⟩
    · intro place inside problem
      rw [together]
      rw [List.length_append, List.length_singleton, Nat.lt_succ_iff_lt_or_eq] at inside
      obtain before | rfl := inside
      · exact fine place before problem
      · exact not_fault_of_fresh blank taken problem

/-! ## Chains of names -/

/-- A list of names is a chain, or its first fault is reported. -/
theorem ofNames_cases (names : List String) :
    (Faultless names ∧ ofNames names = .ok ⟨names.map Text.trim⟩) ∨
      ∃ position problem, FirstFault names position problem ∧ ofNames names = .error problem := by
  obtain ⟨faultless, stages, accepted⟩ | ⟨position, problem, first, refused⟩ :=
    accept_cases [] names (by simp)
  · have whole := (eq_map_trim_of_accept accepted).1
    refine .inl ⟨faultless, ?_⟩
    rw [ofNames, ← whole]
    exact congrArg (Except.map Chain.mk) accepted
  · exact .inr ⟨position, problem, first, congrArg (Except.map Chain.mk) refused⟩

/-- Names without a fault, and no others, make a chain: themselves, trimmed. -/
theorem ofNames_eq_ok_iff {chain : Chain} :
    ofNames names = .ok chain ↔ Faultless names ∧ chain.stages = names.map Text.trim := by
  obtain ⟨faultless, made⟩ | ⟨position, problem, first, refused⟩ := ofNames_cases names
  · rw [made, Except.ok.injEq]
    constructor
    · rintro rfl
      exact ⟨faultless, rfl⟩
    · rintro ⟨-, same⟩
      rw [← same]
  · rw [refused]
    constructor
    · intro made
      simp at made
    · rintro ⟨faultless, -⟩
      exact absurd first.fault (faultless position problem)

/-- The first fault of a list of names is what is reported. -/
theorem ofNames_eq_error_iff :
    ofNames names = .error problem ↔ ∃ position, FirstFault names position problem := by
  obtain ⟨faultless, made⟩ | ⟨position, cause, first, refused⟩ := ofNames_cases names
  · rw [made]
    constructor
    · intro refused
      simp at refused
    · rintro ⟨position, first⟩
      exact absurd first.fault (faultless position problem)
  · rw [refused, Except.error.injEq]
    constructor
    · rintro rfl
      exact ⟨position, first⟩
    · rintro ⟨other, second⟩
      exact (first.unique second).2

/-! ## Chains of texts -/

/-- A blank text holds no comma, and its only piece is no name. -/
theorem not_faultless_of_isBlankText {text : String} (blank : Text.isBlankText text = true) :
    ¬ Faultless (Text.split ',' text) := by
  intro faultless
  have clean : ',' ∉ text.toList := fun comma =>
    absurd (Text.isBlankText_iff.mp blank ',' comma) (by decide)
  have whole : Text.split ',' text = [text] := by
    rw [Text.split, Text.splitList_of_not_mem clean]
    simp
  rw [whole] at faultless
  exact faultless 0 _ (.empty rfl (String.isEmpty_iff.mp blank))

/-- A text is a chain without stages if it is blank, else the chain of its trimmed pieces if nothing
is wrong with them. -/
theorem parse_eq_ok_iff {text : String} {chain : Chain} :
    parse text = .ok chain ↔
      (Text.isBlankText text = true ∧ chain.stages = []) ∨
        (Faultless (Text.split ',' text) ∧
          chain.stages = (Text.split ',' text).map Text.trim) := by
  by_cases blank : Text.isBlankText text = true
  · have faulty := not_faultless_of_isBlankText blank
    rw [parse, if_pos blank, Except.ok.injEq]
    constructor
    · rintro rfl
      exact .inl ⟨blank, rfl⟩
    · rintro (⟨-, none⟩ | ⟨faultless, -⟩)
      · rw [← none]
      · exact absurd faultless faulty
  · rw [parse, if_neg blank, ofNames_eq_ok_iff]
    constructor
    · exact .inr
    · rintro (⟨again, -⟩ | made)
      · exact absurd again blank
      · exact made

/-- Only a text that is not blank is refused, with the first fault of its pieces. -/
theorem parse_eq_error_iff {text : String} :
    parse text = .error problem ↔
      Text.isBlankText text = false ∧
        ∃ position, FirstFault (Text.split ',' text) position problem := by
  rw [← ofNames_eq_error_iff, parse]
  by_cases blank : Text.isBlankText text = true
  · simp [blank]
  · simp [blank]

/-- Names that are trimmed, filled and different from each other have no fault. -/
theorem Proper.faultless {chain : Chain} (proper : chain.Proper) : Faultless chain.stages := by
  intro position problem fault
  cases fault with
  | empty here blank =>
    have filled := proper.filled _ (List.mem_of_getElem? here)
    rw [Text.isBlankText, blank] at filled
    exact absurd filled (by decide)
  | again here before there same =>
    rw [proper.trimmed _ (List.mem_of_getElem? there),
      proper.trimmed _ (List.mem_of_getElem? here)] at same
    have inside := (List.getElem?_eq_some_iff.mp there).1
    rw [same] at there
    have places := (List.getElem?_inj inside proper.distinct).mp (there.trans here.symm)
    omega

/-- A proper chain without commas in its names is what its text is read as. -/
theorem Proper.parse_text {chain : Chain} (proper : chain.Proper)
    (clean : ∀ stage ∈ chain.stages, ',' ∉ stage.toList) : parse chain.text = .ok chain := by
  rw [parse_eq_ok_iff]
  cases held : chain.stages with
  | nil =>
    refine .inl ⟨?_, rfl⟩
    rw [text, held]
    rfl
  | cons first others =>
    have cut : Text.split ',' chain.text = chain.stages :=
      Text.split_join clean (by rw [held]; exact List.cons_ne_nil first others)
    have unchanged : chain.stages.map Text.trim = chain.stages :=
      (List.map_congr_left proper.trimmed).trans (List.map_id _)
    rw [cut, unchanged, held]
    refine .inr ⟨?_, rfl⟩
    rw [← held]
    exact proper.faultless

/-! ## Names of stages -/

/-- A name that a stage of a chain can have: trimmed, not blank and without a comma. -/
structure IsStageName (name : String) : Prop where
  filled : Text.isBlankText name = false
  trimmed : Text.trim name = name
  clean : ',' ∉ name.toList

/-- The name of a stage is read as the chain of this stage alone. -/
theorem IsStageName.parse_eq {name : String} (usable : IsStageName name) :
    parse name = .ok ⟨[name]⟩ := by
  have alone : (⟨[name]⟩ : Chain).text = name := by
    simp [text, Text.join, Text.joinList, String.ofList_toList]
  have proper : (⟨[name]⟩ : Chain).Proper :=
    ⟨by simpa using usable.trimmed, by simpa using usable.filled, List.nodup_singleton name⟩
  have read := proper.parse_text (by simpa using usable.clean)
  rwa [alone] at read

/-- The names of the stages of chains are the ones that stand in a chain read from some text. -/
theorem isStageName_iff {name : String} :
    IsStageName name ↔ ∃ text chain, parse text = .ok chain ∧ chain.contains name = true := by
  constructor
  · intro usable
    exact ⟨name, ⟨[name]⟩, usable.parse_eq, by simp [contains]⟩
  · rintro ⟨text, chain, parsed, held⟩
    obtain ⟨proper, clean⟩ := proper_of_parse parsed
    have inside : name ∈ chain.stages := of_decide_eq_true held
    exact ⟨proper.filled name inside, proper.trimmed name inside, clean name inside⟩

/-! ## What is read and printed -/

/-- A list of names makes a chain of the trimmed names unless it has a fault, and then its first
fault is reported. A text makes a chain if it is blank or nothing is wrong with what stands between
its commas, and the first fault is reported otherwise. The text of a chain that is read is read as
the same chain. Each of its stages is followed by the next one and the last one by nothing, and only
a stage that the chain does not contain is missing. -/
theorem reading_exact :
    (∀ names problem, ofNames names = .error problem ↔
      ∃ position, FirstFault names position problem) ∧
    (∀ names chain, ofNames names = .ok chain ↔
      Faultless names ∧ chain.stages = names.map Text.trim) ∧
    (∀ text, (∃ chain, parse text = .ok chain) ↔
      Text.isBlankText text = true ∨ Faultless (Text.split ',' text)) ∧
    (∀ text problem, parse text = .error problem ↔
      Text.isBlankText text = false ∧
        ∃ position, FirstFault (Text.split ',' text) position problem) ∧
    ∀ text chain, parse text = .ok chain →
      chain.stages =
        (if Text.isBlankText text then [] else (Text.split ',' text).map Text.trim) ∧
      parse chain.text = .ok chain ∧
      (∀ place stage, chain.stages[place]? = some stage →
        chain.successor stage = Successor.ofNext? chain.stages[place + 1]?) ∧
      ∀ stage, chain.successor stage = .missing ↔ chain.contains stage = false := by
  refine ⟨fun _ _ => ofNames_eq_error_iff, fun _ _ => ofNames_eq_ok_iff, fun text => ?_,
    fun _ _ => parse_eq_error_iff, fun text chain parsed => ⟨?_, ?_, ?_, ?_⟩⟩
  · constructor
    · rintro ⟨chain, parsed⟩
      exact (parse_eq_ok_iff.mp parsed).imp And.left And.left
    · rintro (blank | faultless)
      · exact ⟨⟨[]⟩, parse_eq_ok_iff.mpr (.inl ⟨blank, rfl⟩)⟩
      · exact ⟨⟨_⟩, parse_eq_ok_iff.mpr (.inr ⟨faultless, rfl⟩)⟩
  · by_cases blank : Text.isBlankText text = true
    · obtain ⟨-, none⟩ | ⟨faultless, -⟩ := parse_eq_ok_iff.mp parsed
      · rw [if_pos blank, none]
      · exact absurd faultless (not_faultless_of_isBlankText blank)
    · obtain ⟨again, -⟩ | ⟨-, pieces⟩ := parse_eq_ok_iff.mp parsed
      · exact absurd again blank
      · rw [if_neg blank, pieces]
  · obtain ⟨proper, clean⟩ := proper_of_parse parsed
    exact proper.parse_text clean
  · exact fun place stage here => successorIn_of_getElem? (nodup_of_parse parsed) here
  · intro stage
    rw [successor, successorIn_eq_missing_iff, contains, decide_eq_false_iff_not]

/-- The first fault of four names is the repeated one, not the blank one after it; a text with
blanks of several kinds is read as three names. -/
theorem reading_exact_padded :
    (∃ position, FirstFault ["bronze", "silver ", "\tsilver", ""] position
      (.duplicateStage "silver")) ∧
    parse " bronze ,silver,\u2003gold" = .ok ⟨["bronze", "silver", "gold"]⟩ ∧
    parse "bronze,silver,gold" = .ok ⟨["bronze", "silver", "gold"]⟩ ∧
    successor ⟨["bronze", "silver", "gold"]⟩ "silver" = .next "gold" ∧
    successor ⟨["bronze", "silver", "gold"]⟩ "gold" = .last := by
  obtain ⟨refused, -, -, -, read⟩ := reading_exact
  have parsed : parse " bronze ,silver,\u2003gold" = .ok ⟨["bronze", "silver", "gold"]⟩ := by
    decide
  obtain ⟨-, again, followed, -⟩ := read _ _ parsed
  exact ⟨(refused _ _).mp (by decide), parsed, again, followed 1 "silver" rfl,
    followed 2 "gold" rfl⟩

end EventRelay.Chain
