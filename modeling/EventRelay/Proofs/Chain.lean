import EventRelay.Chain
import EventRelay.Proofs.Text.Split
import Mathlib

/-!
# Stages of a chain have one place each

A chain that is built from names or read from a text holds them trimmed; none of them is blank, and
none stands in it twice. What follows a stage is then the next name, and the last stage is followed
by nothing.
-/

namespace EventRelay

/-- The successor of a stage, given the name that follows it if there is one. -/
def Successor.ofNext? : Option String → Successor
  | some stage => .next stage
  | none => .last

namespace Chain

/-- Names that are taken differ from each other and from the ones taken before. -/
theorem nodup_of_accept {taken names stages : List String}
    (accepted : accept taken names = .ok stages) :
    stages.Nodup ∧ ∀ stage ∈ stages, stage ∉ taken := by
  induction names generalizing taken stages with
  | nil =>
    obtain rfl : [] = stages := Except.ok.inj accepted
    simp
  | cons raw names inductionHypothesis =>
    unfold accept at accepted
    extract_lets name at accepted
    split at accepted
    · simp at accepted
    · split at accepted
      · simp at accepted
      · rename_i fresh
        cases later : accept (taken ++ [name]) names with
        | error problem => simp [later, Except.map] at accepted
        | ok others =>
          obtain rfl : name :: others = stages := by simpa [later, Except.map] using accepted
          obtain ⟨distinct, untaken⟩ := inductionHypothesis later
          have notName : name ∉ others := fun again => untaken name again (by simp)
          refine ⟨List.nodup_cons.mpr ⟨notName, distinct⟩, ?_⟩
          rw [List.forall_mem_cons]
          exact ⟨fresh, fun other member before =>
            untaken other member (List.mem_append_left _ before)⟩

/-- Names that are taken are trimmed, and none of them is empty. -/
theorem eq_map_trim_of_accept {taken names stages : List String}
    (accepted : accept taken names = .ok stages) :
    stages = names.map Text.trim ∧ "" ∉ stages := by
  induction names generalizing taken stages with
  | nil =>
    obtain rfl : [] = stages := Except.ok.inj accepted
    simp
  | cons raw names inductionHypothesis =>
    unfold accept at accepted
    extract_lets name at accepted
    split at accepted
    · simp at accepted
    · rename_i filled
      split at accepted
      · simp at accepted
      · cases later : accept (taken ++ [name]) names with
        | error problem => simp [later, Except.map] at accepted
        | ok others =>
          obtain rfl : name :: others = stages := by simpa [later, Except.map] using accepted
          obtain ⟨rfl, others⟩ := inductionHypothesis later
          refine ⟨rfl, ?_⟩
          rw [List.mem_cons, not_or]
          exact ⟨fun empty => filled (by rw [← empty]; rfl), others⟩

/-- The names of a chain are trimmed and different from each other, and none is blank. -/
structure Proper (chain : Chain) : Prop where
  trimmed : ∀ stage ∈ chain.stages, Text.trim stage = stage
  filled : ∀ stage ∈ chain.stages, Text.isBlankText stage = false
  distinct : chain.stages.Nodup

/-- A chain of names holds these names trimmed, and is proper. -/
theorem proper_of_ofNames {names : List String} {chain : Chain}
    (made : ofNames names = .ok chain) :
    chain.stages = names.map Text.trim ∧ chain.Proper := by
  unfold ofNames at made
  cases accepted : accept [] names with
  | error problem => simp [accepted, Except.map] at made
  | ok stages =>
    obtain rfl : Chain.mk stages = chain := by simpa [accepted, Except.map] using made
    obtain ⟨rfl, filled⟩ := eq_map_trim_of_accept accepted
    have trimmed : ∀ stage ∈ names.map Text.trim, Text.trim stage = stage := by
      rintro _ inside
      obtain ⟨raw, -, rfl⟩ := List.mem_map.mp inside
      exact Text.trim_trim raw
    refine ⟨rfl, trimmed, fun stage inside => ?_, (nodup_of_accept accepted).1⟩
    rw [Text.isBlankText, trimmed stage inside, String.isEmpty_eq_false_iff]
    rintro rfl
    exact filled inside

/-- A chain that is read from a text is proper, and no name in it holds a comma. -/
theorem proper_of_parse {text : String} {chain : Chain} (parsed : parse text = .ok chain) :
    chain.Proper ∧ ∀ stage ∈ chain.stages, ',' ∉ stage.toList := by
  unfold parse at parsed
  split at parsed
  · obtain rfl : Chain.mk [] = chain := Except.ok.inj parsed
    exact ⟨⟨by simp, by simp, List.nodup_nil⟩, by simp⟩
  · obtain ⟨names, proper⟩ := proper_of_ofNames parsed
    refine ⟨proper, fun stage inside comma => ?_⟩
    rw [names] at inside
    obtain ⟨raw, cut, rfl⟩ := List.mem_map.mp inside
    exact Text.not_mem_of_mem_split cut (Text.mem_of_mem_trim comma)

/-- A chain that is read from a text names no stage twice. -/
theorem nodup_of_parse {text : String} {chain : Chain} (parsed : parse text = .ok chain) :
    chain.stages.Nodup :=
  (proper_of_parse parsed).1.distinct

/-- The successor of a stage is the name at the next place. -/
theorem successorIn_of_getElem? {stages : List String} (distinct : stages.Nodup) {place : Nat}
    {stage : String} (here : stages[place]? = some stage) :
    successorIn stage stages = Successor.ofNext? stages[place + 1]? := by
  induction stages generalizing place with
  | nil => simp at here
  | cons first rest inductionHypothesis =>
    obtain ⟨notFirst, distinctRest⟩ := List.nodup_cons.mp distinct
    cases place with
    | zero =>
      obtain rfl : first = stage := by simpa using here
      cases rest <;> simp [successorIn, Successor.ofNext?]
    | succ place =>
      rw [List.getElem?_cons_succ] at here
      have other : first ≠ stage := by
        rintro rfl
        exact notFirst (List.mem_of_getElem? here)
      have passed : successorIn stage (first :: rest) = successorIn stage rest := if_neg other
      rw [passed, inductionHypothesis distinctRest here, List.getElem?_cons_succ]

/-- A stage has no place in a list exactly when it is not in it. -/
theorem successorIn_eq_missing_iff {stages : List String} {stage : String} :
    successorIn stage stages = .missing ↔ stage ∉ stages := by
  induction stages with
  | nil => simp [successorIn]
  | cons first rest inductionHypothesis =>
    by_cases here : first = stage
    · cases rest <;> simp [successorIn, here]
    · have passed : successorIn stage (first :: rest) = successorIn stage rest := if_neg here
      rw [passed, inductionHypothesis, List.mem_cons, not_or]
      exact ⟨fun later => ⟨Ne.symm here, later⟩, fun both => both.2⟩

end Chain

end EventRelay
