import EventRelay.Proofs.Json.Members
import EventRelay.Rule.Record

/-!
# Which texts are rule records

A text is a rule record exactly where its tokens are members between braces or elements between
brackets, and the record then consists of the fields that they give. The value of a field is read,
and the value of any other member is passed over. No field is given twice, and an array has no more
elements than there are fields.
-/

namespace EventRelay

open Json (Token Scan Spells Passed separated continued)

/-- A field is found under its own name and under no other. -/
theorem RecordField.ofName?_eq_some_iff {name : String} {field : RecordField} :
    ofName? name = some field ↔ name = field.name := by
  constructor
  · intro found
    have named := List.find?_some found
    exact (of_decide_eq_true named).symm
  · rintro rfl
    cases field <;> decide

namespace RuleRecord

/-! ## Records by what they are given -/

/-- The record of fields that are given, in that order. -/
def ofGiven (given : List (RecordField × Json)) : RuleRecord :=
  ⟨(given.map fun field => (field.1, FieldValue.ofJson? field.2)).reverse⟩

theorem set_ofGiven (given : List (RecordField × Json)) (field : RecordField) (value : Json) :
    (ofGiven given).set field value = ofGiven (given ++ [(field, value)]) := by
  simp [ofGiven, set]

theorem has_ofGiven (given : List (RecordField × Json)) (field : RecordField) :
    (ofGiven given).has field = true ↔ field ∈ given.map Prod.fst := by
  simp [ofGiven, has]

/-- Where no field is given twice, a record holds what the field has been given. -/
theorem get?_ofGiven {given : List (RecordField × Json)} (distinct : (given.map Prod.fst).Nodup)
    (field : RecordField) :
    (ofGiven given).get? field = (given.lookup field).bind FieldValue.ofJson? := by
  have found : (ofGiven given).fields.lookup field =
      (given.lookup field).map FieldValue.ofJson? := by
    induction given with
    | nil => rfl
    | cons first rest inductionHypothesis =>
      obtain ⟨held, value⟩ := first
      rw [List.map_cons, List.nodup_cons] at distinct
      have behind : (ofGiven ((held, value) :: rest)).fields =
          (ofGiven rest).fields ++ [(held, FieldValue.ofJson? value)] := by simp [ofGiven]
      rw [behind, List.lookup_append, inductionHypothesis distinct.2, List.lookup_cons,
        List.lookup_cons]
      cases same : field == held with
      | false => simp
      | true =>
        have absent : rest.lookup field = none := by
          rw [List.lookup_eq_none_iff]
          intro other there
          rw [LawfulBEq.eq_of_beq same, bne_iff_ne]
          exact fun equal => distinct.1 (List.mem_map.mpr ⟨other, there, equal.symm⟩)
        simp [absent]
  rw [get?, found]
  cases given.lookup field <;> rfl

/-! ## Members and elements -/

/-- The tokens of a member of a record, with the field that it gives, if it is one. -/
inductive SpellsMember : List Token → Option (RecordField × Json) → Prop
  | field {pieces : List Json.Piece} {field : RecordField} {tokens : List Token} {value : Json}
      (named : Json.textOf .closed pieces = .ok field.name)
      (spells : Spells Reading.room tokens value) :
      SpellsMember (.text pieces :: .colon :: tokens) (some (field, value))
  | other {pieces : List Json.Piece} {name : String} {tokens : List Token}
      (named : Json.textOf .closed pieces = .ok name) (unknown : RecordField.ofName? name = none)
      (passed : Passed tokens) : SpellsMember (.text pieces :: .colon :: tokens) none

/-- Tokens that give fields as the members of an object. -/
def SpellsObject (tokens : List Token) (given : List (RecordField × Json)) : Prop :=
  ∃ parts members, List.Forall₂ SpellsMember parts members ∧
    tokens = .openObject :: (separated parts ++ [.closeObject]) ∧
    given = members.reduceOption ∧ (given.map Prod.fst).Nodup

/-- Tokens that give fields as the elements of an array, from the first field on. -/
def SpellsArray (tokens : List Token) (given : List (RecordField × Json)) : Prop :=
  ∃ parts values, List.Forall₂ (Spells Reading.room) parts values ∧
    tokens = .openArray :: (separated parts ++ [.closeArray]) ∧
    values.length ≤ RecordField.all.length ∧ given = RecordField.all.zip values

namespace Reading

/-- A field's value is read by the JSON reader, and its errors are errors of the record. -/
theorem advance_eq (inner : Json.Reader.State) (token : Token) (going : Json.Reader.State → State)
    (after : Json → State) :
    advance inner token going after =
      Scan.hosted .syntactic going after ((Json.reader room).step inner token) := by
  have same : (Json.reader room).step inner token = Json.Reader.step room inner token := rfl
  rw [same, advance, lift]
  rcases Json.Reader.step room inner token with cause | next | value <;> rfl

/-- The value of a field is read inside a member. -/
theorem hosts_value (record : RuleRecord) (field : RecordField) :
    reading.Hosts (Json.reader room) .syntactic (.value record field)
      fun value => .afterMember (record.set field value) where
  step inner token := advance_eq inner token _ _
  endProblem _ := rfl

/-- The value of a field is read inside an element. -/
theorem hosts_item (record : RuleRecord) (field : RecordField) (later : List RecordField) :
    reading.Hosts (Json.reader room) .syntactic (.item record field later)
      fun value => .afterItem (record.set field value) later where
  step inner token := advance_eq inner token _ _
  endProblem _ := rfl

/-- The value of another member is passed over. -/
theorem hosts_skipped (record : RuleRecord) :
    reading.Hosts Json.skim .syntactic (.skipped record) fun _ => .afterMember record where
  step inner token := by
    have same : Json.skim.step inner token = Json.Skim.step inner token := rfl
    change (lift (Json.Skim.step inner token)).bind _ = _
    rw [same, lift]
    rcases Json.Skim.step inner token with cause | next | value <;> rfl
  endProblem _ := rfl

/-- A name that names no field, or one that has not been given, is taken. -/
theorem member_of_fresh {record : RuleRecord} {pieces : List Json.Piece} {name : String}
    (named : Json.textOf .closed pieces = .ok name)
    (fresh : ∀ field ∈ RecordField.ofName? name, record.has field = false) :
    member record (.text pieces) = .ok (.going (.colon record (RecordField.ofName? name))) := by
  have read : Json.Reader.nameOf (.text pieces) = .ok name := named
  cases known : RecordField.ofName? name with
  | none => simp [member, lift, read, known, Except.mapError, bind, Except.bind, pure, Except.pure]
  | some field =>
    have absent : record.has field = false := fresh field known
    simp [member, lift, read, known, absent, Except.mapError, bind, Except.bind, pure, Except.pure]

/-- What is taken as a name is a string that names no field, or one that has not been given. -/
theorem fresh_of_member {record : RuleRecord} {token : Token}
    {progress : Json.Progress State RuleRecord} (taken : member record token = .ok progress) :
    ∃ pieces name, token = .text pieces ∧ Json.textOf .closed pieces = .ok name ∧
      (∀ field ∈ RecordField.ofName? name, record.has field = false) ∧
      progress = .going (.colon record (RecordField.ofName? name)) := by
  cases read : Json.Reader.nameOf token with
  | error cause => simp [member, lift, read, Except.mapError, bind, Except.bind] at taken
  | ok name =>
    obtain ⟨pieces, rfl, named⟩ := Json.nameOf_eq_ok_iff.mp read
    have fresh : ∀ field ∈ RecordField.ofName? name, record.has field = false := by
      intro field known
      rw [Option.mem_def] at known
      rw [← Bool.not_eq_true]
      intro given
      simp [member, lift, read, known, given, Except.mapError, bind, Except.bind, throw,
        throwThe, MonadExceptOf.throw] at taken
    rw [member_of_fresh named fresh] at taken
    exact ⟨pieces, name, rfl, named, fresh, (Except.ok.inj taken).symm⟩

/-- After a name there is a colon, and then the value of a field or one to pass over. -/
theorem run_colon_iff {record : RuleRecord} {field : Option RecordField} {tokens : List Token}
    {outcome : RuleRecord × List Token} :
    reading.run (.colon record field) tokens = .ok outcome ↔
      ∃ rest, tokens = .colon :: rest ∧
        reading.run (field.elim (.skipped record (.value [])) (.value record · (.value [])))
          rest = .ok outcome := by
  cases tokens with
  | nil => simp [Scan.run]
  | cons token rest =>
    rw [Scan.run_cons]
    cases token with
    | colon => cases field <;> simp [reading, step, Scan.proceed]
    | _ => simp [reading, step, Scan.proceed]

/-- After the name of a field there is its value, which the field is given. -/
theorem run_colon_field_iff {given : List (RecordField × Json)} {field : RecordField}
    {tokens left : List Token} {record : RuleRecord} :
    reading.run (.colon (ofGiven given) (some field)) tokens = .ok (record, left) ↔
      ∃ part rest value, tokens = .colon :: (part ++ rest) ∧ Spells room part value ∧
        reading.run (.afterMember (ofGiven (given ++ [(field, value)]))) rest =
          .ok (record, left) := by
  rw [run_colon_iff]
  simp only [Option.elim_some, (hosts_value (ofGiven given) field).run_eq_ok_iff, set_ofGiven]
  constructor
  · rintro ⟨-, rfl, part, rest, value, rfl, spells, after⟩
    exact ⟨part, rest, value, rfl, spells, after⟩
  · rintro ⟨part, rest, value, rfl, spells, after⟩
    exact ⟨_, rfl, part, rest, value, rfl, spells, after⟩

/-- After another name there is a value that is passed over. -/
theorem run_colon_other_iff {given : List (RecordField × Json)} {tokens left : List Token}
    {record : RuleRecord} :
    reading.run (.colon (ofGiven given) Option.none) tokens = .ok (record, left) ↔
      ∃ part rest, tokens = .colon :: (part ++ rest) ∧ Passed part ∧
        reading.run (.afterMember (ofGiven given)) rest = .ok (record, left) := by
  rw [run_colon_iff]
  simp only [Option.elim_none, (hosts_skipped (ofGiven given)).run_eq_ok_iff]
  constructor
  · rintro ⟨-, rfl, part, rest, value, rfl, passed, after⟩
    exact ⟨part, rest, rfl, passed, after⟩
  · rintro ⟨part, rest, rfl, passed, after⟩
    exact ⟨_, rfl, part, rest, (), rfl, passed, after⟩

/-- Tokens that begin with a member, after which the record is read on. -/
def Continues (given : List (RecordField × Json)) (tokens left : List Token)
    (record : RuleRecord) : Prop :=
  ∃ part member rest, tokens = part ++ rest ∧ SpellsMember part member ∧
    (∀ field ∈ member, field.1 ∉ given.map Prod.fst) ∧
    reading.run (.afterMember (ofGiven (given ++ member.toList))) rest = .ok (record, left)

/-- Where a name may stand, the tokens begin with a member. -/
theorem proceed_member_iff {given : List (RecordField × Json)} {token : Token}
    {tokens left : List Token} {record : RuleRecord} :
    reading.proceed (member (ofGiven given) token) tokens = .ok (record, left) ↔
      Continues given (token :: tokens) left record := by
  constructor
  · intro complete
    cases taken : member (ofGiven given) token with
    | error problem => simp [taken, Scan.proceed] at complete
    | ok progress =>
      obtain ⟨pieces, name, rfl, named, fresh, rfl⟩ := fresh_of_member taken
      rw [taken] at complete
      change reading.run (.colon (ofGiven given) _) tokens = _ at complete
      cases known : RecordField.ofName? name with
      | none =>
        rw [known, run_colon_other_iff] at complete
        obtain ⟨used, rest, rfl, passed, after⟩ := complete
        refine ⟨.text pieces :: .colon :: used, Option.none, rest, rfl,
          .other named known passed, by simp, ?_⟩
        simpa using after
      | some field =>
        rw [known, run_colon_field_iff] at complete
        obtain ⟨used, rest, value, rfl, spells, after⟩ := complete
        have new := fresh field known
        rw [← Bool.not_eq_true, has_ofGiven] at new
        rw [RecordField.ofName?_eq_some_iff] at known
        subst known
        exact ⟨.text pieces :: .colon :: used, some (field, value), rest, rfl,
          .field named spells, by simpa using new, after⟩
  · rintro ⟨part, found, rest, split, spelled, new, after⟩
    cases spelled with
    | @field pieces field used value named spells =>
      obtain ⟨rfl, rfl⟩ := List.cons.inj split
      have known := RecordField.ofName?_eq_some_iff.mpr (rfl : field.name = field.name)
      have fresh : ∀ held ∈ RecordField.ofName? field.name, (ofGiven given).has held = false := by
        rintro held (heldKnown : RecordField.ofName? field.name = some held)
        obtain rfl := Option.some.inj (known.symm.trans heldKnown)
        rw [← Bool.not_eq_true, has_ofGiven]
        exact new _ rfl
      rw [member_of_fresh named fresh, known]
      exact run_colon_field_iff.mpr ⟨used, rest, value, rfl, spells, after⟩
    | @other pieces name used named unknown passed =>
      obtain ⟨rfl, rfl⟩ := List.cons.inj split
      rw [member_of_fresh named (by simp [unknown]), unknown]
      exact run_colon_other_iff.mpr ⟨used, rest, rfl, passed, by simpa using after⟩

/-- A member begins with its name. -/
theorem Continues.exists_text {given : List (RecordField × Json)} {tokens left : List Token}
    {record : RuleRecord} (continues : Continues given tokens left record) :
    ∃ pieces rest, tokens = .text pieces :: rest := by
  obtain ⟨part, found, rest, rfl, spelled, -, -⟩ := continues
  cases spelled <;> exact ⟨_, _, rfl⟩

/-- After a comma there is a member. -/
theorem run_nextName_iff {given : List (RecordField × Json)} {tokens left : List Token}
    {record : RuleRecord} :
    reading.run (.nextName (ofGiven given)) tokens = .ok (record, left) ↔
      Continues given tokens left record := by
  cases tokens with
  | nil => exact iff_of_false nofun fun continues => nomatch continues.exists_text
  | cons token rest =>
    by_cases close : token = .closeObject
    · subst close
      exact iff_of_false nofun fun continues => nomatch continues.exists_text
    · rw [Scan.run_cons, ← proceed_member_iff]
      have named : reading.step (.nextName (ofGiven given)) token =
          member (ofGiven given) token := by
        cases token <;> first | rfl | exact absurd rfl close
      rw [named]

/-- After a member the object ends, or a comma comes before another member. -/
theorem run_afterMember_iff {given : List (RecordField × Json)} {tokens left : List Token}
    {record : RuleRecord} :
    reading.run (.afterMember (ofGiven given)) tokens = .ok (record, left) ↔
      (tokens = .closeObject :: left ∧ record = ofGiven given) ∨
        ∃ later, tokens = .comma :: later ∧ Continues given later left record := by
  cases tokens with
  | nil => simp [Scan.run]
  | cons token rest =>
    rw [Scan.run_cons]
    cases token with
    | closeObject =>
      simp only [reading, step, Scan.proceed, Except.ok.injEq, Prod.mk.injEq, List.cons.injEq,
        reduceCtorEq, false_and, exists_false, or_false, true_and]
      rw [and_comm, eq_comm (a := record)]
    | comma =>
      have next : reading.step (.afterMember (ofGiven given)) .comma =
          .ok (.going (.nextName (ofGiven given))) := rfl
      rw [next]
      simp only [Scan.proceed, List.cons.injEq, reduceCtorEq, false_and, false_or, true_and,
        exists_eq_left']
      exact run_nextName_iff
    | _ => simp [reading, step, Scan.proceed]

/-- After the opening brace the object ends, or there is a first member. -/
theorem run_firstName_iff {tokens left : List Token} {record : RuleRecord} :
    reading.run .firstName tokens = .ok (record, left) ↔
      (tokens = .closeObject :: left ∧ record = ofGiven []) ∨ Continues [] tokens left record := by
  cases tokens with
  | nil =>
    refine iff_of_false nofun ?_
    rintro (⟨split, -⟩ | continues)
    · cases split
    · exact nomatch continues.exists_text
  | cons token rest =>
    rw [Scan.run_cons]
    by_cases close : token = .closeObject
    · subst close
      have ends : reading.step .firstName .closeObject = .ok (.complete (ofGiven [])) := rfl
      have unnamed : ¬ Continues [] (.closeObject :: rest) left record :=
        fun continues => nomatch continues.exists_text
      simp only [ends, unnamed, or_false, Scan.proceed, Except.ok.injEq,
        Prod.mk.injEq, List.cons.injEq, true_and]
      rw [and_comm, eq_comm (a := record)]
    · have named : reading.step .firstName token = member (ofGiven []) token := by
        cases token <;> first | rfl | exact absurd rfl close
      rw [named, proceed_member_iff]
      simp [close]

/-- A member adds the field that it gives to those given before. -/
theorem append_reduceOption_cons (given : List (RecordField × Json))
    (found : Option (RecordField × Json)) (members : List (Option (RecordField × Json))) :
    given ++ (found :: members).reduceOption =
      (given ++ found.toList) ++ members.reduceOption := by
  cases found with
  | none => rw [List.reduceOption_cons_of_none, Option.toList_none, List.append_nil]
  | some field =>
    rw [List.reduceOption_cons_of_some, Option.toList_some, List.append_assoc,
      List.singleton_append]

/-- No field is given twice where a member gives a new one. -/
theorem nodup_append_toList {given : List (RecordField × Json)}
    {found : Option (RecordField × Json)} (distinct : (given.map Prod.fst).Nodup)
    (new : ∀ field ∈ found, field.1 ∉ given.map Prod.fst) :
    ((given ++ found.toList).map Prod.fst).Nodup := by
  cases found with
  | none => simpa using distinct
  | some field =>
    rw [List.map_append, Option.toList_some, List.map_singleton, ← List.concat_eq_append]
    exact distinct.concat (new field rfl)

/-- What the object goes on with, up to its end, are members that each follow a comma. -/
theorem run_members_iff {given : List (RecordField × Json)}
    (distinct : (given.map Prod.fst).Nodup) {tokens left : List Token} {record : RuleRecord} :
    reading.run (.afterMember (ofGiven given)) tokens = .ok (record, left) ↔
      ∃ parts members, List.Forall₂ SpellsMember parts members ∧
        tokens = continued parts ++ .closeObject :: left ∧
        ((given ++ members.reduceOption).map Prod.fst).Nodup ∧
        record = ofGiven (given ++ members.reduceOption) := by
  constructor
  · intro complete
    -- Every member uses up tokens, so the induction is on their number.
    induction size : tokens.length using Nat.strong_induction_on generalizing given tokens with
    | h count inductionHypothesis =>
      obtain ⟨rfl, rfl⟩ | ⟨later, rfl, part, found, rest, rfl, spelled, new, after⟩ :=
        run_afterMember_iff.mp complete
      · exact ⟨[], [], .nil, rfl, by simpa using distinct, by simp⟩
      · have fewer : rest.length < count := by
          subst size
          simp only [List.length_cons, List.length_append]
          omega
        obtain ⟨parts, members, spells, rfl, unique, rfl⟩ :=
          inductionHypothesis _ fewer (nodup_append_toList distinct new) after rfl
        rw [← append_reduceOption_cons] at unique
        exact ⟨part :: parts, found :: members, .cons spelled spells,
          (Json.continued_cons_append ..).symm, unique, by rw [append_reduceOption_cons]⟩
  · rintro ⟨parts, members, spells, rfl, unique, rfl⟩
    induction spells generalizing given with
    | nil => exact run_afterMember_iff.mpr (.inl ⟨rfl, by simp⟩)
    | @cons part found parts members spelled spells inductionHypothesis =>
      rw [append_reduceOption_cons] at unique ⊢
      have grown : ((given ++ found.toList).map Prod.fst).Nodup := by
        rw [List.map_append] at unique
        exact unique.of_append_left
      have new : ∀ field ∈ found, field.1 ∉ given.map Prod.fst := by
        rintro field rfl there
        rw [List.map_append, List.nodup_append] at grown
        exact grown.2.2 _ there _ (by simp) rfl
      have behind := Json.continued_cons_append part parts (.closeObject :: left)
      refine run_afterMember_iff.mpr (.inr ⟨_, behind, part, found, _, rfl, spelled, new, ?_⟩)
      exact inductionHypothesis grown unique

/-- After the opening brace there are members, with commas between them, up to the end of the
object. -/
theorem run_object_iff {tokens left : List Token} {record : RuleRecord} :
    reading.run .firstName tokens = .ok (record, left) ↔
      ∃ parts members, List.Forall₂ SpellsMember parts members ∧
        tokens = separated parts ++ .closeObject :: left ∧
        (members.reduceOption.map Prod.fst).Nodup ∧ record = ofGiven members.reduceOption := by
  rw [run_firstName_iff]
  have unnamed : (([] : List (RecordField × Json)).map Prod.fst).Nodup := .nil
  constructor
  · rintro (⟨rfl, rfl⟩ | ⟨part, found, rest, rfl, spelled, new, after⟩)
    · exact ⟨[], [], .nil, rfl, .nil, rfl⟩
    · obtain ⟨parts, members, spells, rfl, unique, rfl⟩ :=
        (run_members_iff (nodup_append_toList unnamed new)).mp after
      rw [← append_reduceOption_cons] at unique
      exact ⟨part :: parts, found :: members, .cons spelled spells, by simp [Json.separated_cons],
        unique, by rw [← append_reduceOption_cons]; rfl⟩
  · rintro ⟨parts, members, spells, rfl, unique, rfl⟩
    cases spells with
    | nil => exact .inl ⟨rfl, rfl⟩
    | @cons part found parts members spelled spells =>
      have absent : ∀ field ∈ found, field.1 ∉ ([] : List (RecordField × Json)).map Prod.fst := by
        simp
      refine .inr ⟨part, found, _, by rw [Json.separated_cons, List.append_assoc], spelled, absent,
        ?_⟩
      have distinct := nodup_append_toList unnamed absent
      refine (run_members_iff distinct).mpr ⟨parts, members, spells, rfl, ?_⟩
      rw [← append_reduceOption_cons]
      exact ⟨unique, rfl⟩

/-- Where an element may stand, the tokens begin with the value of the next field. -/
theorem run_item_iff {given : List (RecordField × Json)} {field : RecordField}
    {later : List RecordField} {tokens left : List Token} {record : RuleRecord} :
    reading.run (.item (ofGiven given) field later (.value [])) tokens = .ok (record, left) ↔
      ∃ part rest value, tokens = part ++ rest ∧ Spells room part value ∧
        reading.run (.afterItem (ofGiven (given ++ [(field, value)])) later) rest =
          .ok (record, left) := by
  simp only [(hosts_item (ofGiven given) field later).run_eq_ok_iff, set_ofGiven, Spells]

/-- The end of the array is no element. -/
theorem run_item_closeArray_ne_ok {given : List (RecordField × Json)} {field : RecordField}
    {later : List RecordField} {tokens left : List Token} {record : RuleRecord} :
    reading.run (.item (ofGiven given) field later (.value [])) (.closeArray :: tokens) ≠
      .ok (record, left) := by
  intro complete
  obtain ⟨part, rest, value, split, spells, -⟩ := run_item_iff.mp complete
  obtain ⟨first, others, rfl, unclosed⟩ := spells.exists_cons
  exact unclosed (List.cons.inj split).1.symm

/-- After a comma there is an element. -/
theorem run_nextItem_iff {given : List (RecordField × Json)} {field : RecordField}
    {later : List RecordField} {tokens left : List Token} {record : RuleRecord} :
    reading.run (.nextItem (ofGiven given) field later) tokens = .ok (record, left) ↔
      reading.run (.item (ofGiven given) field later (.value [])) tokens = .ok (record, left) := by
  cases tokens with
  | nil => simp [Scan.run]
  | cons token rest =>
    by_cases close : token = .closeArray
    · subst close
      refine iff_of_false ?_ run_item_closeArray_ne_ok
      simp [Scan.run, reading, step]
    · have same : reading.step (.nextItem (ofGiven given) field later) token =
          reading.step (.item (ofGiven given) field later (.value [])) token := by
        cases token <;> first | rfl | exact absurd rfl close
      rw [Scan.run_cons, Scan.run_cons, same]

/-- After an element the array ends, or a comma comes before an element for the next field. -/
theorem run_afterItem_iff {given : List (RecordField × Json)} {later : List RecordField}
    {tokens left : List Token} {record : RuleRecord} :
    reading.run (.afterItem (ofGiven given) later) tokens = .ok (record, left) ↔
      (tokens = .closeArray :: left ∧ record = ofGiven given) ∨
        ∃ field others rest, later = field :: others ∧ tokens = .comma :: rest ∧
          reading.run (.item (ofGiven given) field others (.value [])) rest =
            .ok (record, left) := by
  cases tokens with
  | nil => simp [Scan.run]
  | cons token rest =>
    rw [Scan.run_cons]
    cases token with
    | closeArray =>
      have ends : reading.step (.afterItem (ofGiven given) later) .closeArray =
          .ok (.complete (ofGiven given)) := by
        cases later <;> rfl
      simp only [ends, Scan.proceed, Except.ok.injEq, Prod.mk.injEq, List.cons.injEq,
        reduceCtorEq, false_and, and_false, exists_false, or_false, true_and]
      rw [and_comm, eq_comm (a := record)]
    | comma =>
      cases later with
      | nil =>
        -- Whatever follows the comma is one element too many.
        have surplus : reading.step (.afterItem (ofGiven given) []) .comma =
            .ok (.going .surplus) := rfl
        rw [surplus]
        cases rest with
        | nil => simp [Scan.proceed, Scan.run]
        | cons next rest => cases next <;> simp [Scan.proceed, Scan.run, reading, step]
      | cons field others =>
        have next : reading.step (.afterItem (ofGiven given) (field :: others)) .comma =
            .ok (.going (.nextItem (ofGiven given) field others)) := rfl
        rw [next]
        refine run_nextItem_iff.trans ?_
        simp
    | _ => cases later <;> simp [reading, step, Scan.proceed]

/-- What the array goes on with, up to its end, are values of the remaining fields that each follow
a comma. -/
theorem run_items_iff {given : List (RecordField × Json)} {later : List RecordField}
    {tokens left : List Token} {record : RuleRecord} :
    reading.run (.afterItem (ofGiven given) later) tokens = .ok (record, left) ↔
      ∃ parts values, List.Forall₂ (Spells room) parts values ∧
        tokens = continued parts ++ .closeArray :: left ∧
        values.length ≤ later.length ∧ record = ofGiven (given ++ later.zip values) := by
  constructor
  · intro complete
    induction later generalizing given tokens with
    | nil =>
      obtain ⟨rfl, rfl⟩ | ⟨field, others, rest, split, -, -⟩ := run_afterItem_iff.mp complete
      · exact ⟨[], [], .nil, rfl, Nat.le_refl _, by simp⟩
      · cases split
    | cons field later inductionHypothesis =>
      obtain ⟨rfl, rfl⟩ | ⟨_, _, rest, split, rfl, going⟩ := run_afterItem_iff.mp complete
      · exact ⟨[], [], .nil, rfl, Nat.zero_le _, by simp⟩
      · obtain ⟨rfl, rfl⟩ := List.cons.inj split
        obtain ⟨part, rest, value, rfl, spelled, after⟩ := run_item_iff.mp going
        obtain ⟨parts, values, spells, rfl, few, rfl⟩ := inductionHypothesis after
        refine ⟨part :: parts, value :: values, .cons spelled spells,
          (Json.continued_cons_append ..).symm, Nat.succ_le_succ few, ?_⟩
        rw [List.zip_cons_cons, List.append_assoc, List.singleton_append]
  · rintro ⟨parts, values, spells, rfl, few, rfl⟩
    induction spells generalizing given later with
    | nil => exact run_afterItem_iff.mpr (.inl ⟨rfl, by simp⟩)
    | @cons part value parts values spelled spells inductionHypothesis =>
      cases later with
      | nil => exact absurd few (Nat.not_succ_le_zero _)
      | cons field later =>
        have behind := Json.continued_cons_append part parts (.closeArray :: left)
        refine run_afterItem_iff.mpr (.inr ⟨field, later, _, rfl, behind, ?_⟩)
        refine run_item_iff.mpr ⟨part, _, value, rfl, spelled, ?_⟩
        rw [List.zip_cons_cons, List.append_cons given _ (later.zip values)]
        exact inductionHypothesis (Nat.le_of_succ_le_succ few)

/-- After the opening bracket the array ends, or there is an element for the first field. -/
theorem run_firstItem_iff {tokens left : List Token} {record : RuleRecord} :
    reading.run .firstItem tokens = .ok (record, left) ↔
      (tokens = .closeArray :: left ∧ record = ofGiven []) ∨
        reading.run (.item (ofGiven []) .project (RecordField.all.drop 1) (.value [])) tokens =
          .ok (record, left) := by
  cases tokens with
  | nil => simp [Scan.run]
  | cons token rest =>
    by_cases close : token = .closeArray
    · subst close
      have ends : reading.run .firstItem (.closeArray :: rest) = .ok (ofGiven [], rest) := rfl
      rw [ends]
      simp only [run_item_closeArray_ne_ok, or_false, Except.ok.injEq, Prod.mk.injEq,
        List.cons.injEq, true_and]
      rw [and_comm, eq_comm (a := record)]
    · have same : reading.step .firstItem token =
          reading.step (.item (ofGiven []) .project (RecordField.all.drop 1) (.value []))
            token := by
        cases token <;> first | rfl | exact absurd rfl close
      rw [Scan.run_cons, Scan.run_cons, same]
      simp [close]

/-- After the opening bracket there are values, with commas between them and no more than there are
fields, up to the end of the array. -/
theorem run_array_iff {tokens left : List Token} {record : RuleRecord} :
    reading.run .firstItem tokens = .ok (record, left) ↔
      ∃ parts values, List.Forall₂ (Spells room) parts values ∧
        tokens = separated parts ++ .closeArray :: left ∧
        values.length ≤ RecordField.all.length ∧ record = ofGiven (RecordField.all.zip values) := by
  rw [run_firstItem_iff]
  constructor
  · rintro (⟨rfl, rfl⟩ | complete)
    · exact ⟨[], [], .nil, rfl, Nat.zero_le _, rfl⟩
    · obtain ⟨part, rest, value, rfl, spelled, after⟩ := run_item_iff.mp complete
      obtain ⟨parts, values, spells, rfl, few, rfl⟩ := run_items_iff.mp after
      exact ⟨part :: parts, value :: values, .cons spelled spells,
        by rw [Json.separated_cons, List.append_assoc], Nat.succ_le_succ few, rfl⟩
  · rintro ⟨parts, values, spells, rfl, few, rfl⟩
    cases spells with
    | nil => exact .inl ⟨rfl, rfl⟩
    | @cons part value parts values spelled spells =>
      rw [Json.separated_cons, List.append_assoc]
      refine .inr (run_item_iff.mpr ⟨part, _, value, rfl, spelled, ?_⟩)
      exact run_items_iff.mpr ⟨parts, values, spells, rfl, Nat.le_of_succ_le_succ few, rfl⟩

/-- A record begins with a brace or a bracket. -/
theorem run_start_iff {tokens left : List Token} {record : RuleRecord} :
    reading.run .start tokens = .ok (record, left) ↔
      ∃ rest, (tokens = .openObject :: rest ∧ reading.run .firstName rest = .ok (record, left)) ∨
        (tokens = .openArray :: rest ∧ reading.run .firstItem rest = .ok (record, left)) := by
  cases tokens with
  | nil => simp [Scan.run]
  | cons token rest =>
    rw [Scan.run_cons]
    cases token <;> simp [reading, step, Scan.proceed]

end Reading

/-- A text is a rule record exactly where its tokens are members between braces or elements between
brackets, and the record is made of the fields that they give. -/
theorem parse_eq_ok_iff {bytes : Text.Bytes} {record : RuleRecord} :
    parse bytes = .ok record ↔
      ∃ given, (SpellsObject (Json.lex (Text.Utf8.symbols bytes)) given ∨
        SpellsArray (Json.lex (Text.Utf8.symbols bytes)) given) ∧ record = ofGiven given := by
  have whole : parse bytes = .ok record ↔
      reading.run .start (Json.lex (Text.Utf8.symbols bytes)) = .ok (record, []) := by
    rw [parse]
    rcases reading.run .start (Json.lex (Text.Utf8.symbols bytes)) with
      problem | ⟨done, rest⟩
    · simp [bind, Except.bind]
    · cases rest <;> simp [bind, Except.bind, pure, Except.pure, throw, throwThe,
        MonadExceptOf.throw]
  rw [whole, Reading.run_start_iff]
  simp only [Reading.run_object_iff, Reading.run_array_iff]
  constructor
  · rintro ⟨rest, ⟨split, parts, members, spells, rfl, distinct, rfl⟩ |
      ⟨split, parts, values, spells, rfl, few, rfl⟩⟩
    · exact ⟨_, .inl ⟨parts, members, spells, split, rfl, distinct⟩, rfl⟩
    · exact ⟨_, .inr ⟨parts, values, spells, split, few, rfl⟩, rfl⟩
  · rintro ⟨given, ⟨parts, members, spells, split, rfl, distinct⟩ |
      ⟨parts, values, spells, split, few, rfl⟩, rfl⟩
    · exact ⟨_, .inl ⟨split, parts, members, spells, rfl, distinct, rfl⟩⟩
    · exact ⟨_, .inr ⟨split, parts, values, spells, rfl, few, rfl⟩⟩

/-- A text that is read as an object of fields, each of them once, gives these fields. -/
theorem spellsObject_of_read {tokens : List Token} {given : List (RecordField × Json)}
    (distinct : (given.map Prod.fst).Nodup)
    (reads : Json.read tokens = .ok (.object (given.map fun field => (field.1.name, field.2)))) :
    SpellsObject tokens given := by
  have spells : Spells (Reading.room + 1) tokens _ := Json.read_eq_ok_iff.mp reads
  obtain ⟨parts, named, rfl⟩ := spells.exists_members
  refine ⟨parts, given.map some, ?_, rfl, ?_, distinct⟩
  · rw [List.forall₂_map_right_iff] at named ⊢
    refine named.imp ?_
    rintro part field ⟨pieces, tokens, rfl, name, value⟩
    exact .field name value
  · rw [List.reduceOption, List.filterMap_map, Function.id_comp, List.filterMap_some]

/-- A text that is read as an array of no more elements than there are fields gives fields by
them. -/
theorem spellsArray_of_read {tokens : List Token} {values : List Json}
    (few : values.length ≤ RecordField.all.length)
    (reads : Json.read tokens = .ok (.array values)) :
    SpellsArray tokens (RecordField.all.zip values) := by
  have spells : Spells (Reading.room + 1) tokens _ := Json.read_eq_ok_iff.mp reads
  obtain ⟨parts, elements, rfl⟩ := spells.exists_items
  exact ⟨parts, values, elements, rfl, few, rfl⟩

end RuleRecord

end EventRelay
