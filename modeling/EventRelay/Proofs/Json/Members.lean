import EventRelay.Proofs.Json.Depth
import EventRelay.Proofs.Json.Scan

/-!
# The parts of an array and of an object that are read

Inside a container the reader does what it does on its own with room for one container less, and
puts the value into the container as soon as it is complete. So the tokens of an array or object
that is read are parts between commas, each of them spelling an element or a member.
-/

namespace EventRelay.Json

namespace Reader

/-! ## Reading inside a container -/

/-- The state with further containers open around it. -/
def State.inside (outer : List Hole) : State → State
  | .value holes => .value (holes ++ outer)
  | .firstItem holes => .firstItem (holes ++ outer)
  | .nextItem items holes => .nextItem items (holes ++ outer)
  | .afterItem items holes => .afterItem items (holes ++ outer)
  | .firstName holes => .firstName (holes ++ outer)
  | .nextName members holes => .nextName members (holes ++ outer)
  | .colon members name holes => .colon members name (holes ++ outer)
  | .afterMember members holes => .afterMember members (holes ++ outer)

/-- The state after a value has gone into the outermost container. -/
def filled (hole : Hole) (value : Json) : State :=
  match hole with
  | .item before => .afterItem (value :: before) []
  | .member before name => .afterMember ((name, value) :: before) []

variable {room : Nat} (hole : Hole)

/-- What becomes of a step of the reader inside the outermost container. -/
def within (outcome : Except SyntaxError (Progress State Json)) :
    Except SyntaxError (Progress State Json) :=
  Scan.hosted id (State.inside [hole]) (filled hole) outcome

theorem fill_within (value : Json) (holes : List Hole) :
    .ok (fill value (holes ++ [hole])) = within hole (.ok (fill value holes)) := by
  cases holes with
  | nil => cases hole <;> rfl
  | cons inner holes => cases inner <;> rfl

/-- A value begins inside a container as it does on its own with room for one container less. -/
theorem begin_within (holes : List Hole) (token : Token) :
    begin (room + 1) (holes ++ [hole]) token =
      within hole (begin room holes token) := by
  have deeper : (holes ++ [hole]).length < room + 1 ↔ holes.length < room := by
    simp
  have filled := fill_within hole
  cases token with
  | null => exact filled .null holes
  | boolean value => exact filled (.boolean value) holes
  | number numeral =>
    simp only [begin]
    cases numberOf numeral with
    | error cause => rfl
    | ok value => exact filled (.number value) holes
  | text pieces =>
    simp only [begin]
    cases textOf .closed pieces with
    | error cause => rfl
    | ok value => exact filled (.text value) holes
  | brokenText pieces cause =>
    simp only [begin]
    cases textOf (.broken cause) pieces with
    | error cause => rfl
    | ok value => exact filled (.text value) holes
  | openArray | openObject =>
    simp only [begin, deeper]
    by_cases opened : holes.length < room
    · rw [if_pos opened, if_pos opened]
      rfl
    · rw [if_neg opened, if_neg opened]
      rfl
  | _ => rfl

/-- The reader hands the tokens inside a container to a reader with room for one container less. -/
theorem hosts_inside :
    (reader (room + 1)).Hosts (reader room) id (State.inside [hole]) (filled hole) where
  step state token := by
    have begun := @begin_within room hole
    have filled := fill_within hole
    change step (room + 1) (state.inside [hole]) token =
      within hole (step room state token)
    -- The two readers part only where a value is complete and where a container is opened.
    fun_cases step room state token
    case case1 => exact begun _ _
    case case2 => exact filled _ _
    case case3 holes unclosed =>
      rw [State.inside, step]
      · exact begun (.item [] :: holes) token
      · exact unclosed
    case case5 items holes unclosed =>
      rw [State.inside, step]
      · exact begun (.item items :: holes) token
      · exact unclosed
    case case10 holes unclosed =>
      rw [State.inside, step]
      · cases nameOf token <;> rfl
      · exact unclosed
    case case12 members holes unclosed =>
      rw [State.inside, step]
      · cases nameOf token <;> rfl
      · exact unclosed
    case case8 items holes unclosed uncontinued =>
      rw [State.inside, step]
      · rfl
      · exact unclosed
      · exact uncontinued
    case case14 members held holes other =>
      rw [State.inside, step]
      · rfl
      · exact other
    case case17 members holes unclosed uncontinued =>
      rw [State.inside, step]
      · rfl
      · exact unclosed
      · exact uncontinued
    case case6 | case9 | case15 => exact filled _ _
    case case4 | case7 | case11 | case13 | case16 => rfl
  endProblem state := by cases state <;> rfl

/-- Where a value stands in a container, the tokens begin with those of a value. -/
theorem run_inside_iff {tokens left : List Token} {result : Json} :
    (reader (room + 1)).run (.value [hole]) tokens = .ok (result, left) ↔
      ∃ part rest value, tokens = part ++ rest ∧ Spells room part value ∧
        (reader (room + 1)).run (filled hole value) rest = .ok (result, left) := by
  change (reader (room + 1)).run (State.inside [hole] (.value [])) tokens = _ ↔ _
  exact (hosts_inside hole).run_eq_ok_iff

/-! ## Elements -/

/-- After an element the array ends, or a comma comes before another element. -/
theorem afterItem_cases {before : List Json} {tokens left : List Token} {result : Json}
    (complete : (reader room).run (.afterItem before []) tokens = .ok (result, left)) :
    (tokens = .closeArray :: left ∧ result = .array before.reverse) ∨
      ∃ rest, tokens = .comma :: rest ∧
        (reader room).run (.value [.item before]) rest = .ok (result, left) := by
  cases tokens with
  | nil => simp [Scan.run] at complete
  | cons token rest =>
    rw [Scan.run_cons] at complete
    cases token with
    | closeArray =>
      obtain ⟨rfl, rfl⟩ := Prod.mk.inj (Except.ok.inj complete)
      exact .inl ⟨rfl, rfl⟩
    | comma =>
      refine .inr ⟨rest, rfl, ?_⟩
      change (reader room).run (.nextItem before []) rest = _ at complete
      cases rest with
      | nil => simp [Scan.run] at complete
      | cons next others =>
        rw [Scan.run_cons] at complete ⊢
        cases next <;> first | exact complete | cases complete
    | _ => cases complete

/-- What the array goes on with, up to its end, are elements that each follow a comma. -/
theorem exists_items {before : List Json} {tokens left : List Token} {result : Json}
    (complete : (reader (room + 1)).run (.afterItem before []) tokens = .ok (result, left)) :
    ∃ parts items, List.Forall₂ (Spells room) parts items ∧
      tokens = continued parts ++ .closeArray :: left ∧
      result = .array (before.reverse ++ items) := by
  -- The scan leaves fewer tokens after each element, so the induction is on their number.
  induction size : tokens.length using Nat.strong_induction_on generalizing before tokens with
  | h count inductionHypothesis =>
    obtain ⟨rfl, rfl⟩ | ⟨rest, rfl, going⟩ := afterItem_cases complete
    · exact ⟨[], [], .nil, rfl, by simp⟩
    · obtain ⟨part, rest, value, rfl, spells, after⟩ := (run_inside_iff _).mp going
      have fewer : rest.length < count := by
        subst size
        simp only [List.length_cons, List.length_append]
        omega
      obtain ⟨parts, items, later, rfl, rfl⟩ := inductionHypothesis _ fewer after rfl
      exact ⟨part :: parts, value :: items, .cons spells later,
        (continued_cons_append ..).symm, by simp⟩

/-! ## Members -/

/-- The tokens of a member: a name, a colon and the tokens of a value. -/
def SpellsNamed (room : Nat) (part : List Token) (member : String × Json) : Prop :=
  ∃ pieces tokens, part = .text pieces :: .colon :: tokens ∧
    textOf .closed pieces = .ok member.1 ∧ Spells room tokens member.2

/-- Where a name may stand, the tokens begin with a member. -/
theorem exists_member {before : List (String × Json)} {token : Token} {tokens left : List Token}
    {result : Json}
    (complete : (reader (room + 1)).proceed
      ((nameOf token).map fun name => .going (.colon before name [])) tokens =
        .ok (result, left)) :
    ∃ part rest member, token :: tokens = part ++ rest ∧ SpellsNamed room part member ∧
      (reader (room + 1)).run (.afterMember (member :: before) []) rest = .ok (result, left) := by
  cases read : nameOf token with
  | error cause =>
    rw [read] at complete
    cases complete
  | ok name =>
    obtain ⟨pieces, rfl, named⟩ := nameOf_eq_ok_iff.mp read
    rw [read] at complete
    change (reader (room + 1)).run (.colon before name []) tokens = _ at complete
    cases tokens with
    | nil => simp [Scan.run] at complete
    | cons next tokens =>
      rw [Scan.run_cons] at complete
      cases next with
      | colon =>
        obtain ⟨part, rest, value, rfl, spells, after⟩ :=
          (run_inside_iff (.member before name)).mp complete
        exact ⟨.text pieces :: .colon :: part, rest, (name, value), rfl,
          ⟨pieces, part, rfl, named, spells⟩, after⟩
      | _ => cases complete

/-- After a member the object ends, or a comma comes before another member. -/
theorem afterMember_cases {before : List (String × Json)} {tokens left : List Token}
    {result : Json}
    (complete : (reader (room + 1)).run (.afterMember before []) tokens = .ok (result, left)) :
    (tokens = .closeObject :: left ∧ result = .object before.reverse) ∨
      ∃ part rest member, tokens = .comma :: (part ++ rest) ∧ SpellsNamed room part member ∧
        (reader (room + 1)).run (.afterMember (member :: before) []) rest = .ok (result, left) := by
  cases tokens with
  | nil => simp [Scan.run] at complete
  | cons token rest =>
    rw [Scan.run_cons] at complete
    cases token with
    | closeObject =>
      obtain ⟨rfl, rfl⟩ := Prod.mk.inj (Except.ok.inj complete)
      exact .inl ⟨rfl, rfl⟩
    | comma =>
      change (reader (room + 1)).run (.nextName before []) rest = _ at complete
      cases rest with
      | nil => simp [Scan.run] at complete
      | cons next others =>
        rw [Scan.run_cons] at complete
        have named : (reader (room + 1)).proceed
            ((nameOf next).map fun name => .going (.colon before name [])) others =
              .ok (result, left) := by
          cases next <;> first | exact complete | cases complete
        obtain ⟨part, rest, member, split, spells, after⟩ := exists_member named
        exact .inr ⟨part, rest, member, by rw [split], spells, after⟩
    | _ => cases complete

/-- What the object goes on with, up to its end, are members that each follow a comma. -/
theorem exists_members {before : List (String × Json)} {tokens left : List Token} {result : Json}
    (complete : (reader (room + 1)).run (.afterMember before []) tokens = .ok (result, left)) :
    ∃ parts members, List.Forall₂ (SpellsNamed room) parts members ∧
      tokens = continued parts ++ .closeObject :: left ∧
      result = .object (before.reverse ++ members) := by
  induction size : tokens.length using Nat.strong_induction_on generalizing before tokens with
  | h count inductionHypothesis =>
    obtain ⟨rfl, rfl⟩ | ⟨part, rest, member, rfl, spells, after⟩ := afterMember_cases complete
    · exact ⟨[], [], .nil, rfl, by simp⟩
    · have fewer : rest.length < count := by
        subst size
        simp only [List.length_cons, List.length_append]
        omega
      obtain ⟨parts, members, later, rfl, rfl⟩ := inductionHypothesis _ fewer after rfl
      exact ⟨part :: parts, member :: members, .cons spells later,
        (continued_cons_append ..).symm, by simp⟩

/-! ## Whole containers -/

/-- What is read from an opening bracket on is an array of elements with commas between them. -/
theorem exists_items_of_first {tokens left : List Token} {result : Json}
    (complete : (reader (room + 1)).run (.firstItem []) tokens = .ok (result, left)) :
    ∃ parts items, List.Forall₂ (Spells room) parts items ∧
      tokens = separated parts ++ .closeArray :: left ∧ result = .array items := by
  cases tokens with
  | nil => simp [Scan.run] at complete
  | cons token rest =>
    by_cases close : token = .closeArray
    · subst close
      obtain ⟨rfl, rfl⟩ := Prod.mk.inj (Except.ok.inj complete)
      exact ⟨[], [], .nil, rfl, rfl⟩
    · have first : (reader (room + 1)).run (.value [.item []]) (token :: rest) =
          .ok (result, left) := by
        rw [Scan.run_cons] at complete ⊢
        cases token <;> first | exact complete | exact absurd rfl close
      obtain ⟨part, others, value, split, spells, after⟩ := (run_inside_iff _).mp first
      obtain ⟨parts, items, later, rfl, rfl⟩ := exists_items after
      exact ⟨part :: parts, value :: items, .cons spells later,
        by rw [split, separated_cons, List.append_assoc], rfl⟩

/-- What is read from an opening brace on is an object of members with commas between them. -/
theorem exists_members_of_first {tokens left : List Token} {result : Json}
    (complete : (reader (room + 1)).run (.firstName []) tokens = .ok (result, left)) :
    ∃ parts members, List.Forall₂ (SpellsNamed room) parts members ∧
      tokens = separated parts ++ .closeObject :: left ∧ result = .object members := by
  cases tokens with
  | nil => simp [Scan.run] at complete
  | cons token rest =>
    by_cases close : token = .closeObject
    · subst close
      obtain ⟨rfl, rfl⟩ := Prod.mk.inj (Except.ok.inj complete)
      exact ⟨[], [], .nil, rfl, rfl⟩
    · have named : (reader (room + 1)).proceed
          ((nameOf token).map fun name => .going (.colon [] name [])) rest =
            .ok (result, left) := by
        rw [Scan.run_cons] at complete
        cases token <;> first | exact complete | exact absurd rfl close
      obtain ⟨part, others, member, split, spells, after⟩ := exists_member named
      obtain ⟨parts, members, later, rfl, rfl⟩ := exists_members after
      exact ⟨part :: parts, member :: members, .cons spells later,
        by rw [split, separated_cons, List.append_assoc], rfl⟩

end Reader

/-- A value that is read begins with a bracket or a brace, or it holds no other values. -/
theorem Spells.cases {room : Nat} {tokens : List Token} {value : Json}
    (spells : Spells (room + 1) tokens value) :
    (∃ rest, tokens = .openArray :: rest ∧
        (reader (room + 1)).run (.firstItem []) rest = .ok (value, [])) ∨
      (∃ rest, tokens = .openObject :: rest ∧
        (reader (room + 1)).run (.firstName []) rest = .ok (value, [])) ∨ value.depth = 0 := by
  cases tokens with
  | nil => simp [Spells, Scan.run] at spells
  | cons token rest =>
    rw [Spells, Scan.run_cons] at spells
    cases token with
    | openArray => exact .inl ⟨rest, rfl, spells⟩
    | openObject => exact .inr (.inl ⟨rest, rfl, spells⟩)
    | null | boolean _ =>
      obtain ⟨rfl, -⟩ := Prod.mk.inj (Except.ok.inj spells)
      exact .inr (.inr rfl)
    | number numeral =>
      simp only [reader, Reader.step, Reader.begin] at spells
      cases read : numberOf numeral with
      | error cause => simp [read, Except.map, Scan.proceed] at spells
      | ok number =>
        rw [read] at spells
        obtain ⟨rfl, -⟩ := Prod.mk.inj (Except.ok.inj spells)
        exact .inr (.inr rfl)
    | text pieces =>
      simp only [reader, Reader.step, Reader.begin] at spells
      cases read : textOf .closed pieces with
      | error cause => simp [read, Except.map, Scan.proceed] at spells
      | ok text =>
        rw [read] at spells
        obtain ⟨rfl, -⟩ := Prod.mk.inj (Except.ok.inj spells)
        exact .inr (.inr rfl)
    | brokenText pieces cause =>
      simp only [reader, Reader.step, Reader.begin] at spells
      cases read : textOf (.broken cause) pieces with
      | error cause => simp [read, Except.map, Scan.proceed] at spells
      | ok text => exact absurd read (textOf_broken_ne_ok cause pieces text)
    | _ => cases spells

/-- The tokens of an array that is read are the elements between brackets, with commas between
them. -/
theorem Spells.exists_items {room : Nat} {tokens : List Token} {items : List Json}
    (spells : Spells (room + 1) tokens (.array items)) :
    ∃ parts, List.Forall₂ (Spells room) parts items ∧
      tokens = .openArray :: (separated parts ++ [.closeArray]) := by
  obtain ⟨rest, rfl, complete⟩ | ⟨rest, rfl, complete⟩ | flat := spells.cases
  · obtain ⟨parts, held, elements, rfl, same⟩ := Reader.exists_items_of_first complete
    cases same
    exact ⟨parts, elements, rfl⟩
  · obtain ⟨_, _, _, _, same⟩ := Reader.exists_members_of_first complete
    cases same
  · exact absurd flat (depth_array_pos items).ne'

/-- The tokens of an object that is read are the members between braces, with commas between
them. -/
theorem Spells.exists_members {room : Nat} {tokens : List Token} {members : List (String × Json)}
    (spells : Spells (room + 1) tokens (.object members)) :
    ∃ parts, List.Forall₂ (Reader.SpellsNamed room) parts members ∧
      tokens = .openObject :: (separated parts ++ [.closeObject]) := by
  obtain ⟨rest, rfl, complete⟩ | ⟨rest, rfl, complete⟩ | flat := spells.cases
  · obtain ⟨_, _, _, _, same⟩ := Reader.exists_items_of_first complete
    cases same
  · obtain ⟨parts, held, named, rfl, same⟩ := Reader.exists_members_of_first complete
    cases same
    exact ⟨parts, named, rfl⟩
  · exact absurd flat (depth_object_pos members).ne'

/-- A text is read as a value where its tokens spell the value with all the room there is. -/
theorem read_eq_ok_iff {tokens : List Token} {value : Json} :
    read tokens = .ok value ↔ Spells maxDepth tokens value := by
  rw [read, Spells]
  rcases (reader maxDepth).run (.value []) tokens with problem | ⟨done, left⟩
  · simp [bind, Except.bind]
  · cases left <;> simp [bind, Except.bind, pure, Except.pure, throw, throwThe,
      MonadExceptOf.throw]

end EventRelay.Json
