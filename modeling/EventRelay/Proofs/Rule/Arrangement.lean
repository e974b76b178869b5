import EventRelay.Proofs.Json.Joined
import EventRelay.Proofs.Rule.Restatement

/-!
# The order of the members of a record

A record that is written as an object gives its fields one by one, whatever stands between them. So
its members may be written in any order and with any well-formed members of other names among them:
it makes the same rule, or ends in the same error.
-/

namespace EventRelay

open Json (Token Spells Passed WellFormed IsObjectText IsWholeText tokensOf)

/-- The text of a member of an object, with the name that it gives. -/
structure MemberText where
  name : String
  text : String

namespace MemberText

/-- The text is that of a name, a colon and a value, which has these tokens. -/
def Writes (member : MemberText) (value : List Token) : Prop :=
  ∃ pieces, tokensOf member.text = .text pieces :: .colon :: value ∧
    Json.textOf .closed pieces = .ok member.name

/-- The value can be read inside a record, where one container is open. -/
def Readable (member : MemberText) : Prop :=
  ∃ tokens value, member.Writes tokens ∧ Spells RuleRecord.Reading.room tokens value

/-- The name is that of no field, and the value is well-formed. -/
structure Foreign (member : MemberText) : Prop where
  name : member.name ∉ RecordField.all.map RecordField.name
  value : ∃ tokens, member.Writes tokens ∧ WellFormed tokens

/-- The text of a member can be joined with others, and gives a field where its name is that of
one. -/
structure Gives (member : MemberText) (given : Option (RecordField × Json)) : Prop where
  whole : IsWholeText member.text
  spells : RuleRecord.SpellsMember (tokensOf member.text) given
  field : given.map Prod.fst = RecordField.ofName? member.name

variable {member : MemberText} {tokens : List Token}

theorem Writes.isWholeText (writes : member.Writes tokens) (passed : Passed tokens) :
    IsWholeText member.text := by
  obtain ⟨pieces, spelled, -⟩ := writes
  rw [IsWholeText, spelled]
  simpa [Token.isWhole] using passed.whole

/-- A member that can be read gives the field of its name. -/
theorem Readable.exists_gives (readable : member.Readable) : ∃ given, member.Gives given := by
  obtain ⟨tokens, value, writes, spells⟩ := readable
  have whole := writes.isWholeText spells.passed
  obtain ⟨pieces, spelled, named⟩ := writes
  cases known : RecordField.ofName? member.name with
  | none =>
    exact ⟨none, whole, spelled ▸ .other named known spells.passed, known.symm⟩
  | some field =>
    rw [RecordField.ofName?_eq_some_iff.mp known] at named
    exact ⟨some (field, value), whole, spelled ▸ .field named spells, known.symm⟩

/-- A foreign member gives no field. -/
theorem Foreign.gives_none (foreign : member.Foreign) : member.Gives none := by
  obtain ⟨tokens, writes, wellFormed⟩ := foreign.value
  have unknown : RecordField.ofName? member.name = none := by
    rw [Option.eq_none_iff_forall_ne_some]
    intro field known
    refine foreign.name (List.mem_map.mpr ⟨field, ?_, ?_⟩)
    · cases field <;> decide
    · exact (RecordField.ofName?_eq_some_iff.mp known).symm
  have whole := writes.isWholeText wellFormed.passed
  obtain ⟨pieces, spelled, named⟩ := writes
  exact ⟨whole, spelled ▸ .other named unknown wellFormed.passed, unknown.symm⟩

end MemberText

/-- Where no key is listed twice, the order of a list makes no difference to a look-up. -/
theorem lookup_of_perm {Key Value : Type} [DecidableEq Key] {first second : List (Key × Value)}
    (perm : first.Perm second) (distinct : (first.map Prod.fst).Nodup) (key : Key) :
    first.lookup key = second.lookup key := by
  induction perm with
  | nil => rfl
  | cons entry perm inductionHypothesis =>
    rw [List.map_cons, List.nodup_cons] at distinct
    rw [List.lookup_cons, List.lookup_cons, inductionHypothesis distinct.2]
  | swap first second rest =>
    obtain ⟨held, value⟩ := first
    obtain ⟨heldBefore, before⟩ := second
    simp only [List.map_cons, List.nodup_cons, List.mem_cons, not_or] at distinct
    cases here : key == held with
    | false => simp [List.lookup_cons, here]
    | true =>
      have elsewhere : (key == heldBefore) = false := by
        rw [LawfulBEq.eq_of_beq here]
        simpa using Ne.symm distinct.1.1
      simp [List.lookup_cons, here, elsewhere]
  | trans perm _ before after =>
    exact (before distinct).trans (after ((perm.map Prod.fst).nodup distinct))

namespace RuleRecord

/-- The text of an object gives the fields of its members, if it gives none of them twice. -/
theorem parse_of_gives {members : List MemberText}
    {give : MemberText → Option (RecordField × Json)} {text : String}
    (gives : ∀ member ∈ members, member.Gives (give member))
    (distinct : ((members.filterMap give).map Prod.fst).Nodup)
    (object : IsObjectText text (members.map MemberText.text)) :
    parse (Text.Utf8.encode text) = .ok (ofGiven (members.filterMap give)) := by
  have tokens : Json.lex (Text.Utf8.symbols (Text.Utf8.encode text)) = tokensOf text := by
    rw [Text.Utf8.symbols_encode]
    rfl
  refine parse_eq_ok_iff.mpr ⟨_, .inl ⟨members.map (tokensOf ·.text), members.map give, ?_, ?_, ?_,
    distinct⟩, rfl⟩
  · rw [List.forall₂_map_left_iff, List.forall₂_map_right_iff, List.forall₂_same]
    exact fun member inside => (gives member inside).spells
  · rw [tokens, object.tokensOf_eq (List.forall_mem_map.mpr fun member inside =>
      (gives member inside).whole), List.map_map]
    rfl
  · rw [List.reduceOption, List.filterMap_map, Function.id_comp]

/-- Members whose names are distinct give no field twice. -/
theorem nodup_of_gives {members : List MemberText}
    {give : MemberText → Option (RecordField × Json)}
    (gives : ∀ member ∈ members, member.Gives (give member))
    (distinct : (members.map MemberText.name).Nodup) :
    ((members.filterMap give).map Prod.fst).Nodup := by
  have fields : (members.filterMap give).map Prod.fst =
      (members.map MemberText.name).filterMap RecordField.ofName? := by
    rw [List.map_filterMap, List.filterMap_map]
    exact List.filterMap_congr fun member inside => (gives member inside).field
  rw [fields]
  refine distinct.filterMap fun first second field known also => ?_
  rw [RecordField.ofName?_eq_some_iff.mp known, RecordField.ofName?_eq_some_iff.mp also]

/-- The members of a record that is written as an object, with distinct names and values that can be
read, may be put in any order, and members of other names may be put among them with any well-formed
values. Both texts are accepted, and they make the same rule or end in the same error. -/
theorem rearranged_makes_same_rule {members further arranged : List MemberText}
    {text other : String} (distinct : (members.map MemberText.name).Nodup)
    (readable : ∀ member ∈ members, member.Readable)
    (foreign : ∀ member ∈ further, member.Foreign)
    (perm : arranged.Perm (members ++ further))
    (object : IsObjectText text (members.map MemberText.text))
    (rearranged : IsObjectText other (arranged.map MemberText.text)) :
    ∃ record later, parse (Text.Utf8.encode text) = .ok record ∧
      parse (Text.Utf8.encode other) = .ok later ∧
      ∀ source, record.toRule source = later.toRule source := by
  have each : ∀ member : MemberText, ∃ given, (member ∈ members → member.Gives given) ∧
      (member ∈ further → given = none ∧ member.Gives given) := by
    intro member
    by_cases there : member ∈ further
    · have gives := (foreign member there).gives_none
      exact ⟨none, fun _ => gives, fun _ => ⟨rfl, gives⟩⟩
    · by_cases inside : member ∈ members
      · obtain ⟨given, gives⟩ := (readable member inside).exists_gives
        exact ⟨given, fun _ => gives, fun also => absurd also there⟩
      · exact ⟨none, fun also => absurd also inside, fun also => absurd also there⟩
  choose give ofMember ofFurther using each
  have nothing : further.filterMap give = [] :=
    List.filterMap_eq_nil_iff.mpr fun member inside => (ofFurther member inside).1
  have same : (arranged.filterMap give).Perm (members.filterMap give) := by
    have given := perm.filterMap give
    rwa [List.filterMap_append, nothing, List.append_nil] at given
  have once := nodup_of_gives ofMember distinct
  have onceArranged := (same.map Prod.fst).symm.nodup once
  have arrangedGives : ∀ member ∈ arranged, member.Gives (give member) := by
    intro member inside
    rcases List.mem_append.mp (perm.subset inside) with original | added
    · exact ofMember member original
    · exact (ofFurther member added).2
  have alike := lookup_of_perm same onceArranged
  refine ⟨_, _, parse_of_gives ofMember once object, parse_of_gives arrangedGives onceArranged
    rearranged, fun source => toRule_congr (fun field => ?_) (fun field => ?_) source⟩
  · rw [text?_ofGiven once, text?_ofGiven onceArranged, alike]
  · rw [flag?_ofGiven once, flag?_ofGiven onceArranged, alike]

/-- Two fields of a rule that is inactive. -/
def writtenFields : List MemberText :=
  [⟨"stream_id", "\"stream_id\":\"s1\""⟩, ⟨"active", " \"active\" : false "⟩]

/-- A further member whose value is no value that can be read: a number out of range, and half of a
pair of units. -/
def writtenNote : MemberText :=
  ⟨"note", "\"note\": [1e999,\"\\ud800\"]"⟩

theorem readable_writtenFields : ∀ member ∈ writtenFields, member.Readable := by
  rw [writtenFields, List.forall_mem_cons, List.forall_mem_singleton]
  exact ⟨⟨_, .text "s1", ⟨_, rfl, rfl⟩, rfl⟩, ⟨_, .boolean false, ⟨_, rfl, rfl⟩, rfl⟩⟩

theorem foreign_writtenNote : writtenNote.Foreign where
  name := by decide
  value := by
    refine ⟨_, ⟨_, rfl, rfl⟩, @WellFormed.array
      [[.number ⟨false, [1], [], some ⟨false, [9, 9, 9]⟩⟩], [.text [.unit 0xD800]]] ?_⟩
    rw [List.forall_mem_cons, List.forall_mem_singleton]
    exact ⟨.number _, .text _⟩

/-- The note may stand in front of the fields, and these in the other order. -/
theorem rearranged_makes_same_rule_note :
    (writtenFields.map MemberText.name).Nodup ∧
      (∀ member ∈ writtenFields, member.Readable) ∧ (∀ member ∈ [writtenNote], member.Foreign) ∧
      ∃ record later,
        parse (Text.Utf8.encode "\x7b\"stream_id\":\"s1\", \"active\" : false \x7d") = .ok record ∧
        parse (Text.Utf8.encode
          "\x7b\"note\": [1e999,\"\\ud800\"], \"active\" : false ,\"stream_id\":\"s1\"\x7d") =
            .ok later ∧
        ∀ source, record.toRule source = later.toRule source := by
  have distinct : (writtenFields.map MemberText.name).Nodup := by decide
  have foreign : ∀ member ∈ [writtenNote], member.Foreign :=
    List.forall_mem_singleton.mpr foreign_writtenNote
  have blank : Json.IsBlank "" := by simp [Json.IsBlank]
  refine ⟨distinct, readable_writtenFields, foreign, ?_⟩
  exact rearranged_makes_same_rule distinct readable_writtenFields foreign
    (List.reverse_perm (writtenFields ++ [writtenNote]))
    ⟨"", "", "", blank, blank, blank, by decide⟩ ⟨"", "", "", blank, blank, blank, by decide⟩

end RuleRecord

end EventRelay
