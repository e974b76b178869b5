import EventRelay.Proofs.Json.Members

/-!
# Well-formed JSON is passed over

Which tokens are well-formed is a matter of the grammar alone. Every well-formed value is passed
over up to its end and no further, and so is every value that is read: passing over follows the
reader from state to state and forgets what it has read.
-/

namespace EventRelay.Json

/-- Tokens that are a value by the grammar: containers nest without limit, a number has no range and
a string need not be text. -/
inductive WellFormed : List Token → Prop
  | null : WellFormed [.null]
  | boolean (value : Bool) : WellFormed [.boolean value]
  | number (numeral : Numeral) : WellFormed [.number numeral]
  | text (pieces : List Piece) : WellFormed [.text pieces]
  | array {parts : List (List Token)} (items : ∀ part ∈ parts, WellFormed part) :
      WellFormed (.openArray :: (separated parts ++ [.closeArray]))
  | object {members : List (List Piece × List Token)}
      (values : ∀ member ∈ members, WellFormed member.2) :
      WellFormed (.openObject ::
        (separated (members.map fun member => .text member.1 :: .colon :: member.2) ++
          [.closeObject]))

namespace Skim

/-! ## By the grammar -/

/-- Tokens that are passed over as one value wherever a value may stand. -/
def Skims (tokens : List Token) : Prop :=
  ∀ outer rest, skim.run (.value outer) (tokens ++ rest) =
    skim.proceed (.ok (afterValue outer)) rest

/-- The elements after the first one are passed over, and the array with them. -/
theorem run_moreItems {parts : List (List Token)} (skims : ∀ part ∈ parts, Skims part)
    (outer : List Container) (rest : List Token) :
    skim.run (.afterValue .array outer) (continued parts ++ .closeArray :: rest) =
      skim.proceed (.ok (afterValue outer)) rest := by
  induction parts with
  | nil => exact Scan.run_cons _ _ _ _
  | cons part more inductionHypothesis =>
    rw [List.forall_mem_cons] at skims
    rw [continued_cons_append, Scan.run_cons]
    exact (skims.1 (.array :: outer) _).trans (inductionHypothesis skims.2)

/-- The members after the first one are passed over, and the object with them. -/
theorem run_moreMembers {members : List (List Piece × List Token)}
    (skims : ∀ member ∈ members, Skims member.2) (outer : List Container) (rest : List Token) :
    skim.run (.afterValue .object outer)
        (continued (members.map fun member => .text member.1 :: .colon :: member.2) ++
          .closeObject :: rest) =
      skim.proceed (.ok (afterValue outer)) rest := by
  induction members with
  | nil => exact Scan.run_cons _ _ _ _
  | cons member more inductionHypothesis =>
    rw [List.forall_mem_cons] at skims
    rw [List.map_cons, continued_cons_append, Scan.run_cons]
    exact (skims.1 (.object :: outer) _).trans (inductionHypothesis skims.2)

end Skim

/-- A well-formed value does not begin with the end of an array. -/
theorem WellFormed.exists_cons {tokens : List Token} (wellFormed : WellFormed tokens) :
    ∃ first rest, tokens = first :: rest ∧ first ≠ .closeArray := by
  cases wellFormed <;> exact ⟨_, _, rfl, by simp⟩

/-- A well-formed value is passed over wherever a value may stand. -/
theorem WellFormed.skims {tokens : List Token} (wellFormed : WellFormed tokens) :
    Skim.Skims tokens := by
  induction wellFormed with
  | null | boolean _ | number _ | text _ => exact fun _ _ => Scan.run_cons _ _ _ _
  | @array parts items inductionHypothesis =>
    intro outer rest
    rw [List.cons_append, List.append_assoc, Scan.run_cons]
    change skim.run (.firstItem outer) _ = _
    cases parts with
    | nil => exact Scan.run_cons _ _ _ _
    | cons part more =>
      rw [List.forall_mem_cons] at items inductionHypothesis
      -- The first element does not close the array, so it stands where a value does.
      have begun : skim.run (.firstItem outer) (separated (part :: more) ++ .closeArray :: rest) =
          skim.run (.value (.array :: outer))
            (part ++ (continued more ++ .closeArray :: rest)) := by
        obtain ⟨first, others, rfl, unclosed⟩ := items.1.exists_cons
        rw [separated_cons, List.append_assoc, List.cons_append, Scan.run_cons, Scan.run_cons]
        cases first <;> first | rfl | exact absurd rfl unclosed
      exact begun.trans ((inductionHypothesis.1 (.array :: outer) _).trans
        (Skim.run_moreItems inductionHypothesis.2 outer rest))
  | @object members values inductionHypothesis =>
    intro outer rest
    rw [List.cons_append, List.append_assoc, Scan.run_cons]
    change skim.run (.firstName outer) _ = _
    cases members with
    | nil => exact Scan.run_cons _ _ _ _
    | cons member more =>
      rw [List.forall_mem_cons] at inductionHypothesis
      rw [List.map_cons, separated_cons, List.append_assoc, List.cons_append, List.cons_append,
        Scan.run_cons]
      exact (inductionHypothesis.1 (.object :: outer) _).trans
        (Skim.run_moreMembers inductionHypothesis.2 outer rest)

/-- A well-formed value is passed over. -/
theorem WellFormed.passed {tokens : List Token} (wellFormed : WellFormed tokens) :
    Passed tokens := by
  have skimmed := wellFormed.skims [] []
  rwa [List.append_nil] at skimmed

/-! ## What is read -/

/-- The kind of the container that a hole is in. -/
def Hole.container : Hole → Container
  | .item _ => .array
  | .member _ _ => .object

/-- Where passing over stands when the reader stands in a state. -/
def Reader.State.skimmed : Reader.State → Skim.State
  | .value holes => .value (holes.map Hole.container)
  | .firstItem holes => .firstItem (holes.map Hole.container)
  | .nextItem _ holes => .value (.array :: holes.map Hole.container)
  | .afterItem _ holes => .afterValue .array (holes.map Hole.container)
  | .firstName holes => .firstName (holes.map Hole.container)
  | .nextName _ holes => .name (holes.map Hole.container)
  | .colon _ _ holes => .colon (holes.map Hole.container)
  | .afterMember _ holes => .afterValue .object (holes.map Hole.container)

/-- What has been passed over when the reader has come so far. -/
def Reader.progressSkimmed : Progress Reader.State Json → Progress Skim.State Unit
  | .going state => .going state.skimmed
  | .complete _ => .complete ()

namespace Skim

open Reader (progressSkimmed)

theorem afterValue_holes (value : Json) (holes : List Hole) :
    progressSkimmed (Reader.fill value holes) = afterValue (holes.map Hole.container) := by
  cases holes with
  | nil => rfl
  | cons hole outer => cases hole <;> rfl

/-- What begins a value for the reader begins one that is passed over. -/
theorem begin_of_begin {room : Nat} {holes : List Hole} {token : Token}
    {progress : Progress Reader.State Json} (begun : Reader.begin room holes token = .ok progress) :
    begin (holes.map Hole.container) token = .ok (progressSkimmed progress) := by
  cases token with
  | null | boolean _ =>
    obtain rfl := Except.ok.inj begun
    rw [afterValue_holes]
    rfl
  | number numeral =>
    rw [Reader.begin] at begun
    cases read : numberOf numeral with
    | error cause => simp [read, Except.map] at begun
    | ok value =>
      rw [read] at begun
      obtain rfl := Except.ok.inj begun
      rw [afterValue_holes]
      rfl
  | text pieces =>
    rw [Reader.begin] at begun
    cases read : textOf .closed pieces with
    | error cause => simp [read, Except.map] at begun
    | ok value =>
      rw [read] at begun
      obtain rfl := Except.ok.inj begun
      rw [afterValue_holes]
      rfl
  | brokenText pieces cause =>
    rw [Reader.begin] at begun
    cases read : textOf (.broken cause) pieces with
    | error problem => simp [read, Except.map] at begun
    | ok value => exact absurd read (textOf_broken_ne_ok cause pieces value)
  | openArray | openObject =>
    rw [Reader.begin] at begun
    split at begun
    · obtain rfl := Except.ok.inj begun
      rfl
    · cases begun
  | _ => cases begun

/-- What is a name for the reader is passed over as one. -/
theorem passName_of_nameOf {token : Token} {next : String → Reader.State}
    {progress : Progress Reader.State Json} {outer : List Container}
    (colons : ∀ name, (next name).skimmed = .colon outer)
    (named : (Reader.nameOf token).map (fun name => .going (next name)) = .ok progress) :
    passName outer token = .ok (progressSkimmed progress) := by
  cases read : Reader.nameOf token with
  | error cause =>
    rw [read] at named
    cases named
  | ok name =>
    obtain ⟨pieces, rfl, -⟩ := nameOf_eq_ok_iff.mp read
    rw [read] at named
    obtain rfl := Except.ok.inj named
    rw [progressSkimmed, colons]
    rfl

/-- Passing over follows the reader by one token. -/
theorem step_of_step {room : Nat} {state : Reader.State} {token : Token}
    {progress : Progress Reader.State Json}
    (stepped : Reader.step room state token = .ok progress) :
    step state.skimmed token = .ok (progressSkimmed progress) := by
  fun_cases Reader.step room state token
  case case1 => exact begin_of_begin stepped
  case case3 holes unclosed =>
    rw [Reader.step] at stepped
    · rw [Reader.State.skimmed, step]
      · exact @begin_of_begin room (.item [] :: holes) token progress stepped
      · exact unclosed
    · exact unclosed
  case case5 items holes unclosed =>
    rw [Reader.step] at stepped
    · exact @begin_of_begin room (.item items :: holes) token progress stepped
    · exact unclosed
  case case10 holes unclosed =>
    rw [Reader.step] at stepped
    · rw [Reader.State.skimmed, step]
      · exact passName_of_nameOf (fun _ => rfl) stepped
      · exact unclosed
    · exact unclosed
  case case12 members holes unclosed =>
    rw [Reader.step] at stepped
    · exact passName_of_nameOf (fun _ => rfl) stepped
    · exact unclosed
  case case2 | case6 | case9 | case15 =>
    obtain rfl := Except.ok.inj stepped
    rw [afterValue_holes]
    rfl
  case case7 | case13 | case16 =>
    obtain rfl := Except.ok.inj stepped
    rfl
  case case4 | case11 => cases stepped
  case case8 unclosed uncontinued =>
    rw [Reader.step] at stepped
    · cases stepped
    · exact unclosed
    · exact uncontinued
  case case14 other =>
    rw [Reader.step] at stepped
    · cases stepped
    · exact other
  case case17 unclosed uncontinued =>
    rw [Reader.step] at stepped
    · cases stepped
    · exact unclosed
    · exact uncontinued

/-- Passing over follows the reader to the end of a value. -/
theorem run_of_run {room : Nat} {state : Reader.State} {tokens left : List Token} {value : Json}
    (complete : (reader room).run state tokens = .ok (value, left)) :
    skim.run state.skimmed tokens = .ok ((), left) := by
  induction tokens generalizing state with
  | nil => cases complete
  | cons token rest inductionHypothesis =>
    rw [Scan.run_cons] at complete ⊢
    cases stepped : (reader room).step state token with
    | error problem =>
      rw [stepped] at complete
      cases complete
    | ok progress =>
      have followed : skim.step state.skimmed token = .ok (progressSkimmed progress) :=
        step_of_step stepped
      rw [stepped] at complete
      rw [followed]
      cases progress with
      | going next => exact inductionHypothesis complete
      | complete done =>
        obtain ⟨-, rfl⟩ := Prod.mk.inj (Except.ok.inj complete)
        rfl

end Skim

/-- A value that is read is passed over. -/
theorem Spells.passed {room : Nat} {tokens : List Token} {value : Json}
    (spells : Spells room tokens value) : Passed tokens :=
  Skim.run_of_run spells

end EventRelay.Json
