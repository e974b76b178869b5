import EventRelay.Proofs.Rule.FieldValue

/-!
# Records that mean the same

A field may be given plainly or in a wrapper, and left out or given as one that is not valid. Which
of these forms a record uses makes no difference to its rule, nor to the error where it makes none.
-/

namespace EventRelay

/-- A field that is given in another form: a text or a flag in a valid wrapper, or null or an object
that never calls itself valid in place of a missing field. A wrapper lists its members in any order,
further ones among them. -/
inductive Restates : Option Json → Option Json → Prop
  | same (value : Option Json) : Restates value value
  | text {text : String} {members : List (String × Json)}
      (wrapped : HasSole members "String" (.text text))
      (valid : HasSole members "Valid" (.boolean true)) :
      Restates (some (.text text)) (some (.object members))
  | flag {flag : Bool} {members : List (String × Json)}
      (wrapped : HasSole members "Bool" (.boolean flag))
      (noText : ∀ value, ("String", value) ∉ members)
      (valid : HasSole members "Valid" (.boolean true)) :
      Restates (some (.boolean flag)) (some (.object members))
  | null : Restates none (some .null)
  | invalid {members : List (String × Json)}
      (never : ∀ value, ("Valid", value) ∈ members → value = .boolean false) :
      Restates none (some (.object members))

namespace FieldValue

variable {members : List (String × Json)}

theorem ofMembers_wrappedText {text : String} (wrapped : HasSole members "String" (.text text))
    (valid : HasSole members "Valid" (.boolean true)) :
    ofMembers members = .wrappedText text true := by
  rw [ofMembers, sole?_eq_some_iff.mpr wrapped, validity?_eq_some_true_iff.mpr valid]

theorem ofMembers_wrappedFlag {flag : Bool} (wrapped : HasSole members "Bool" (.boolean flag))
    (noText : ∀ value, ("String", value) ∉ members)
    (valid : HasSole members "Valid" (.boolean true)) :
    ofMembers members = .wrappedFlag flag true := by
  have unwrapped : sole? "String" members = none := by
    rw [Option.eq_none_iff_forall_ne_some]
    exact fun value sole => noText value (sole?_eq_some_iff.mp sole).mem
  rw [ofMembers, unwrapped, sole?_eq_some_iff.mpr wrapped, validity?_eq_some_true_iff.mpr valid]

/-- An object that never calls itself valid reads as an absent field. -/
theorem ofMembers_absent (never : ∀ value, ("Valid", value) ∈ members → value = .boolean false) :
    (ofMembers members).text? = none ∧ (ofMembers members).flag? = none := by
  have invalid : ¬ HasSole members "Valid" (.boolean true) := fun valid =>
    absurd (never _ valid.mem) (by simp)
  constructor
  · rw [Option.eq_none_iff_forall_ne_some]
    exact fun text read => invalid (text?_ofMembers_eq_some_iff.mp read).2.2
  · rw [Option.eq_none_iff_forall_ne_some]
    exact fun flag read => invalid (flag?_ofMembers_eq_some_iff.mp read).2.1

end FieldValue

/-- A field that is given in another form reads the same. -/
theorem Restates.reads_same {value other : Option Json} (restates : Restates value other) :
    (value.bind fun given => (FieldValue.ofJson? given).bind FieldValue.text?) =
        (other.bind fun given => (FieldValue.ofJson? given).bind FieldValue.text?) ∧
      (value.bind fun given => (FieldValue.ofJson? given).bind FieldValue.flag?) =
        other.bind fun given => (FieldValue.ofJson? given).bind FieldValue.flag? := by
  cases restates with
  | same => exact ⟨rfl, rfl⟩
  | text wrapped valid =>
    simp only [Option.bind_some, FieldValue.ofJson?,
      FieldValue.ofMembers_wrappedText wrapped valid]
    exact ⟨rfl, rfl⟩
  | flag wrapped noText valid =>
    simp only [Option.bind_some, FieldValue.ofJson?,
      FieldValue.ofMembers_wrappedFlag wrapped noText valid]
    exact ⟨rfl, rfl⟩
  | null => exact ⟨rfl, rfl⟩
  | invalid never =>
    obtain ⟨noText, noFlag⟩ := FieldValue.ofMembers_absent never
    simp only [Option.bind_some, FieldValue.ofJson?, noText, noFlag]
    exact ⟨rfl, rfl⟩

namespace RuleRecord

/-- The rule of a record depends only on what its fields read as. -/
theorem toRule_congr {record other : RuleRecord}
    (texts : ∀ field, record.text? field = other.text? field)
    (flags : ∀ field, record.flag? field = other.flag? field) (source : String) :
    record.toRule source = other.toRule source := by
  simp only [toRule, texts, flags]

/-- The text is a JSON object of these fields, each of them once. -/
structure IsObjectOf (bytes : Text.Bytes) (given : List (RecordField × Json)) : Prop where
  reads : Json.read (Json.lex (Text.Utf8.symbols bytes)) =
    .ok (.object (given.map fun field => (field.1.name, field.2)))
  once : (given.map Prod.fst).Nodup

/-- A JSON object of fields is accepted as the record that has been given them. -/
theorem IsObjectOf.parse_eq {bytes : Text.Bytes} {given : List (RecordField × Json)}
    (object : IsObjectOf bytes given) : parse bytes = .ok (ofGiven given) :=
  parse_eq_ok_iff.mpr ⟨given, .inl (spellsObject_of_read object.once object.reads), rfl⟩

/-- Two JSON objects that give the same fields, each in any of its forms, are both accepted, and
they make the same rule or end in the same error. -/
theorem restated_makes_same_rule {bytes other : Text.Bytes}
    {given restated : List (RecordField × Json)} (plain : IsObjectOf bytes given)
    (rewritten : IsObjectOf other restated)
    (alike : ∀ field, Restates (given.lookup field) (restated.lookup field)) (source : String) :
    ∃ record later, parse bytes = .ok record ∧ parse other = .ok later ∧
      record.toRule source = later.toRule source := by
  refine ⟨_, _, plain.parse_eq, rewritten.parse_eq,
    toRule_congr (fun field => ?_) (fun field => ?_) source⟩
  · rw [text?_ofGiven plain.once, text?_ofGiven rewritten.once]
    exact (alike field).reads_same.1
  · rw [flag?_ofGiven plain.once, flag?_ofGiven rewritten.once]
    exact (alike field).reads_same.2

/-- Fields that are written as an object are read back from its bytes. -/
theorem isObjectOf_bytes {given : List (RecordField × Json)} (once : (given.map Prod.fst).Nodup)
    (readable : (Json.object (given.map fun field => (field.1.name, field.2))).Readable)
    (shallow : (Json.object (given.map fun field => (field.1.name, field.2))).depth ≤
      Json.maxDepth) :
    IsObjectOf (Json.object (given.map fun field => (field.1.name, field.2))).bytes given :=
  ⟨Json.read_bytes readable shallow, once⟩

/-- The fields of a rule that is inactive. -/
def plainFields : List (RecordField × Json) :=
  [(.stream, .text "s\"1"), (.stages, .text "bronze,silver"), (.active, .boolean false)]

/-- The same fields in wrappers, and the missing ones as null or not valid. -/
def wrappedFields : List (RecordField × Json) :=
  [(.active, .object [("since", .array [.null]), ("Valid", .boolean true),
      ("Bool", .boolean false)]),
    (.project, .null),
    (.stages, .object [("String", .text "bronze,silver"), ("Valid", .boolean true)]),
    (.stream, .object [("Valid", .boolean true), ("note", .text ""), ("String", .text "s\"1")]),
    (.messageType, .object [("String", .text "orders"), ("Valid", .boolean false)]),
    (.folderName, .object [("String", .text "orders")])]

/-- The rule of a record is the same for its wrapped form. -/
theorem restated_makes_same_rule_wrapped :
    let plain := (Json.object (plainFields.map fun field => (field.1.name, field.2))).bytes
    let wrapped := (Json.object (wrappedFields.map fun field => (field.1.name, field.2))).bytes
    IsObjectOf plain plainFields ∧ IsObjectOf wrapped wrappedFields ∧
      (∀ field, Restates (plainFields.lookup field) (wrappedFields.lookup field)) ∧
      ∃ record later, parse plain = .ok record ∧ parse wrapped = .ok later ∧
        record.toRule "a.json" = later.toRule "a.json" := by
  intro plain wrapped
  have first : IsObjectOf plain plainFields :=
    isObjectOf_bytes (by decide) (Json.readable_of_integers (by decide)) (by decide)
  have second : IsObjectOf wrapped wrappedFields :=
    isObjectOf_bytes (by decide) (Json.readable_of_integers (by decide)) (by decide)
  have alike : ∀ field, Restates (plainFields.lookup field) (wrappedFields.lookup field)
    | .project => .null
    | .streamAlias => .same none
    | .stream => .text rfl rfl
    | .stages => .text rfl rfl
    | .active => .flag rfl (by simp) rfl
    | .messageType => .invalid (by simp)
    | .folderName => .invalid (by simp)
  exact ⟨first, second, alike, restated_makes_same_rule first second alike "a.json"⟩

/-- Arrays in one another, so many around an empty one. -/
def arrays : Nat → Json
  | 0 => .array []
  | count + 1 => .array [arrays count]

/-- A wrapper with a further member that opens too many arrays is refused, and the record with it,
where the plain record makes a rule. -/
theorem deep_wrapper_refused :
    let plain := [(RecordField.stream, Json.text "s")]
    let wrapped := [(RecordField.stream,
      Json.object [("String", .text "s"), ("Valid", .boolean true), ("x", arrays 125)])]
    (∀ field, Restates (plain.lookup field) (wrapped.lookup field)) ∧
      (parse (Json.object (plain.map fun field => (field.1.name, field.2))).bytes).map
          (fun record => record.toRule "a.json") =
        .ok (.ok { source := "a.json", stream := some "s" }) ∧
      (parse (Json.object (wrapped.map fun field => (field.1.name, field.2))).bytes).map
          (fun record => record.toRule "a.json") = .error (.syntactic .tooDeep) := by
  intro plain wrapped
  refine ⟨fun field => ?_, ?_, ?_⟩
  · cases field with
    | stream => exact .text rfl rfl
    | _ => exact .same none
  · rw [parse, Json.lex_bytes]
    decide +kernel
  · rw [parse, Json.lex_bytes]
    decide +kernel

end RuleRecord

end EventRelay
