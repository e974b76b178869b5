import EventRelay.Proofs.Json.Normal
import EventRelay.Proofs.Json.RoundTrip

/-!
# A value is read exactly where it fits

A value that is read opens no more containers at once than there is room for. The invariant is about
the holes: what a hole's container holds so far is shallow enough for the number of containers
around it. Every step keeps it, and the value that fills the last hole inherits it. A written value
that does not fit is refused for its depth and for nothing else, since more room would let it
through and changes no other step.
-/

namespace EventRelay.Json

namespace Hole

/-- The values that the container of a hole holds so far. -/
def held : Hole → List Json
  | .item before => before
  | .member before _ => before.map Prod.snd

/-- Every hole's container fits inside those around it, and what it holds fits inside it. -/
def Fit (room : Nat) : List Hole → Prop
  | [] => True
  | hole :: outer => outer.length < room ∧
      (∀ value ∈ hole.held, outer.length + 1 + value.depth ≤ room) ∧ Fit room outer

/-- No more containers are open than there is room for. -/
theorem Fit.length_le {room : Nat} {holes : List Hole} (fit : Fit room holes) :
    holes.length ≤ room := by
  cases holes with
  | nil => exact Nat.zero_le room
  | cons hole outer => exact fit.1

end Hole

namespace Reader

variable {room : Nat}

/-- Where the reader stands, every open container fits. -/
def State.Fits (room : Nat) : State → Prop
  | .value holes => Hole.Fit room holes
  | .firstItem holes => Hole.Fit room (.item [] :: holes)
  | .nextItem items holes => Hole.Fit room (.item items :: holes)
  | .afterItem items holes => Hole.Fit room (.item items :: holes)
  | .firstName holes => Hole.Fit room (.member [] "" :: holes)
  | .nextName members holes => Hole.Fit room (.member members "" :: holes)
  | .colon members name holes => Hole.Fit room (.member members name :: holes)
  | .afterMember members holes => Hole.Fit room (.member members "" :: holes)

/-- What has become of the reader fits: the state, or the value that is complete. -/
def ProgressFits (room : Nat) : Progress State Json → Prop
  | .going state => state.Fits room
  | .complete value => value.depth ≤ room

/-- A value that fits goes into a hole that fits. -/
theorem fill_fits {value : Json} {holes : List Hole} (fit : Hole.Fit room holes)
    (shallow : holes.length + value.depth ≤ room) : ProgressFits room (fill value holes) := by
  match holes, fit with
  | [], _ => simpa [fill, ProgressFits] using shallow
  | .item before :: outer, ⟨opened, held, around⟩ =>
    refine ⟨opened, List.forall_mem_cons.mpr ⟨by simpa using shallow, held⟩, around⟩
  | .member before name :: outer, ⟨opened, held, around⟩ =>
    refine ⟨opened, List.forall_mem_cons.mpr ⟨by simpa using shallow, held⟩, around⟩

/-- An array whose elements fit inside it fits itself. -/
theorem depth_array_fits {items : List Json} {holes : List Hole} (opened : holes.length < room)
    (fit : ∀ item ∈ items, holes.length + 1 + item.depth ≤ room) :
    holes.length + (array items).depth ≤ room := by
  have below : (array items).depth ≤ room - holes.length := by
    refine depth_array_le_iff.mpr ⟨by omega, fun item member => ?_⟩
    have shallow := fit item member
    omega
  omega

/-- An object whose member values fit inside it fits itself. -/
theorem depth_object_fits {members : List (String × Json)} {holes : List Hole}
    (opened : holes.length < room)
    (fit : ∀ value ∈ members.map Prod.snd, holes.length + 1 + value.depth ≤ room) :
    holes.length + (object members).depth ≤ room := by
  have below : (object members).depth ≤ room - holes.length := by
    refine depth_object_le_iff.mpr ⟨by omega, fun member present => ?_⟩
    have shallow := fit member.2 (List.mem_map_of_mem present)
    omega
  omega

/-- A step where a value must begin keeps the fit. -/
theorem begin_fits {holes : List Hole} (fit : Hole.Fit room holes) {token : Token}
    {progress : Progress State Json}
    (taken : begin room holes token = .ok progress) : ProgressFits room progress := by
  cases token with
  | null | boolean value =>
    obtain rfl := Except.ok.inj taken
    exact fill_fits fit fit.length_le
  | number numeral =>
    rw [begin] at taken
    cases read : numberOf numeral with
    | error problem => simp [read, Except.map] at taken
    | ok value =>
      rw [read] at taken
      obtain rfl := Except.ok.inj taken
      exact fill_fits fit fit.length_le
  | text pieces =>
    rw [begin] at taken
    cases read : textOf .closed pieces with
    | error problem => simp [read, Except.map] at taken
    | ok value =>
      rw [read] at taken
      obtain rfl := Except.ok.inj taken
      exact fill_fits fit fit.length_le
  | brokenText pieces cause =>
    rw [begin] at taken
    cases read : textOf (.broken cause) pieces with
    | error problem => simp [read, Except.map] at taken
    | ok value =>
      rw [read] at taken
      obtain rfl := Except.ok.inj taken
      exact fill_fits fit fit.length_le
  | openArray | openObject =>
    rw [begin] at taken
    split at taken
    · rename_i opened
      obtain rfl := Except.ok.inj taken
      exact ⟨opened, by simp [Hole.held], fit⟩
    · simp at taken
  | closeArray | closeObject | comma | colon | brokenNumber _ | brokenWord _ | other =>
    simp [begin] at taken

/-- The name of a member leaves the fit alone. -/
theorem name_fits {members : List (String × Json)} {holes : List Hole}
    (fit : Hole.Fit room (.member members "" :: holes)) {token : Token}
    {progress : Progress State Json}
    (taken : ((nameOf token).map fun name => Progress.going (State.colon members name holes)) =
      .ok progress) : ProgressFits room progress := by
  cases named : nameOf token with
  | error problem => simp [named, Except.map] at taken
  | ok name =>
    rw [named] at taken
    obtain rfl := Except.ok.inj taken
    exact fit

/-- Every step keeps the fit. -/
theorem step_fits {state : State} (fits : state.Fits room) {token : Token}
    {progress : Progress State Json} (taken : step room state token = .ok progress) :
    ProgressFits room progress := by
  revert fits taken
  fun_cases step room state token <;> intro fits taken
  case case1 => exact begin_fits fits taken
  case case3 | case5 => exact begin_fits fits taken
  case case10 | case12 => exact name_fits fits taken
  case case4 | case8 | case11 | case14 | case17 => simp at taken
  all_goals obtain rfl := Except.ok.inj taken
  case case2 => exact fill_fits fits.2.2 (depth_array_fits fits.1 fits.2.1)
  case case6 =>
    exact fill_fits fits.2.2 (depth_array_fits fits.1 fun item member =>
      fits.2.1 item (List.mem_reverse.mp member))
  case case9 => exact fill_fits fits.2.2 (depth_object_fits fits.1 fits.2.1)
  case case15 =>
    exact fill_fits fits.2.2 (depth_object_fits fits.1 fun value member =>
      fits.2.1 value (by simpa [Hole.held] using member))
  case case7 | case13 | case16 => exact fits

/-- A value that is read fits. -/
theorem run_fits {tokens : List Token} {state : State} (fits : state.Fits room)
    {value : Json} {rest : List Token}
    (complete : (reader room).run state tokens = .ok (value, rest)) : value.depth ≤ room := by
  induction tokens generalizing state with
  | nil => simp [Scan.run] at complete
  | cons token others inductionHypothesis =>
    rw [Scan.run] at complete
    cases taken : (reader room).step state token with
    | error problem => simp [taken] at complete
    | ok progress =>
      have stepFits := step_fits fits taken
      rw [taken] at complete
      cases progress with
      | going next => exact inductionHypothesis stepFits complete
      | complete result =>
        have same : result = value := (Prod.mk.inj (Except.ok.inj complete)).1
        exact same ▸ stepFits

end Reader

/-- A value that is parsed is in normal form and not too deep. -/
theorem normal_and_depth_le_of_parse {payload : Text.Bytes} {value : Json}
    (parsed : parse payload = .ok value) : value.Normal ∧ value.depth ≤ maxDepth := by
  unfold parse parseSymbols read at parsed
  cases complete : (reader maxDepth).run (.value []) (lex (Text.Utf8.symbols payload)) with
  | error problem => simp [complete, bind, Except.bind, Except.map] at parsed
  | ok outcome =>
    obtain ⟨raw, rest⟩ := outcome
    have fits : Reader.State.Fits maxDepth (.value []) := trivial
    have shallow := Reader.run_fits fits complete
    cases rest with
    | cons token others =>
      simp [complete, bind, Except.bind, Except.map, throw, throwThe, MonadExceptOf.throw] at parsed
    | nil =>
      have same : raw.normal = value := by
        simpa [complete, bind, Except.bind, Except.map, pure, Except.pure] using parsed
      exact same ▸ ⟨normal_normal raw, (depth_normal_le raw).trans shallow⟩

/-! ## Values that do not fit -/

namespace Reader

/-- Where a value must begin, less room makes no difference but for what is too deep. -/
theorem begin_eq_or_tooDeep {more : Nat} (less : room ≤ more) (holes : List Hole)
    (token : Token) :
    begin room holes token = begin more holes token ∨ begin room holes token = .error .tooDeep := by
  cases token with
  | openArray | openObject =>
    by_cases opened : holes.length < room
    · left
      simp only [begin, if_pos opened, if_pos (opened.trans_le less)]
    · right
      simp only [begin, if_neg opened]
  | _ => exact .inl rfl

/-- Less room makes no difference to a step but for what is too deep. -/
theorem step_eq_or_tooDeep {more : Nat} (less : room ≤ more) (state : State) (token : Token) :
    step room state token = step more state token ∨ step room state token = .error .tooDeep := by
  cases state with
  | value holes => exact begin_eq_or_tooDeep less holes token
  | firstItem holes =>
    have begun := begin_eq_or_tooDeep less (.item [] :: holes) token
    cases token with
    | closeArray => exact .inl rfl
    | _ => exact begun
  | nextItem items holes =>
    have begun := begin_eq_or_tooDeep less (.item items :: holes) token
    cases token with
    | closeArray => exact .inl rfl
    | _ => exact begun
  | _ => cases token <;> exact .inl rfl

/-- Less room makes no difference to reading but for what is too deep. -/
theorem run_eq_or_tooDeep {more : Nat} (less : room ≤ more) (state : State)
    (tokens : List Token) :
    (reader room).run state tokens = (reader more).run state tokens ∨
      (reader room).run state tokens = .error .tooDeep := by
  induction tokens generalizing state with
  | nil => exact .inl rfl
  | cons token rest inductionHypothesis =>
    rw [Scan.run_cons, Scan.run_cons]
    have stepped : (reader room).step state token = (reader more).step state token ∨
        (reader room).step state token = .error .tooDeep := step_eq_or_tooDeep less state token
    rcases stepped with same | tooDeep
    · rw [same]
      rcases (reader more).step state token with problem | next | result
      · exact .inl rfl
      · exact inductionHypothesis next
      · exact .inl rfl
    · rw [tooDeep]
      exact .inr rfl

end Reader

/-- The tokens of a value that does not fit are refused for its depth. -/
theorem read_tokens_of_deep {value : Json} (deep : maxDepth < value.depth) :
    read value.tokens = .error .tooDeep := by
  have fills : Reader.Fills value.depth value := Reader.fills value
  have filled := fills [] [] (by simp)
  rw [List.append_nil] at filled
  rcases Reader.run_eq_or_tooDeep deep.le (.value []) value.tokens with same | tooDeep
  · have complete : (reader maxDepth).run (.value []) value.tokens = .ok (value.reread, []) :=
      same.trans filled
    have fits : Reader.State.Fits maxDepth (.value []) := trivial
    have shallow := Reader.run_fits fits complete
    rw [reread, depth_mapNumbers] at shallow
    exact absurd shallow (Nat.not_le.mpr deep)
  · rw [read, tooDeep]
    rfl

/-- A written value is read back in normal form, its numbers read back, exactly where it fits. -/
theorem parse_bytes_eq_ite (value : Json) :
    parse value.bytes =
      if value.depth ≤ maxDepth then .ok value.reread.normal else .error .tooDeep := by
  rw [parse_bytes_eq, parseText_write_eq]
  split
  · rename_i shallow
    rw [read_tokens shallow]
    rfl
  · rename_i deep
    rw [read_tokens_of_deep (Nat.lt_of_not_le deep)]
    rfl

end EventRelay.Json
