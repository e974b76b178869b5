import EventRelay.Proofs.Rule.Spelling

/-!
# What the fields of a rule record read as

A field has a text where its value is a text that is not empty, or an object that wraps one and
calls it valid; it has a flag where its value is a boolean, or an object that wraps one in the same
way and wraps no text. Every other value reads as an absent field, arrays and numbers among them.
-/

namespace EventRelay

/-- The only member of that name has that value. -/
def HasSole (members : List (String × Json)) (name : String) (value : Json) : Prop :=
  members.filter (fun member => member.1 = name) = [(name, value)]

/-- The text that a JSON value gives where a text is asked for. -/
def Json.GivesText (value : Json) (text : String) : Prop :=
  text ≠ "" ∧ (value = .text text ∨ ∃ members, value = .object members ∧
    HasSole members "String" (.text text) ∧ HasSole members "Valid" (.boolean true))

/-- The flag that a JSON value gives where a flag is asked for. -/
def Json.GivesFlag (value : Json) (flag : Bool) : Prop :=
  value = .boolean flag ∨ ∃ members, value = .object members ∧
    HasSole members "Bool" (.boolean flag) ∧ HasSole members "Valid" (.boolean true) ∧
    ∀ text, ¬ HasSole members "String" (.text text)

theorem HasSole.mem {members : List (String × Json)} {name : String} {value : Json}
    (sole : HasSole members name value) : (name, value) ∈ members := by
  have there : (name, value) ∈ members.filter (fun member => member.1 = name) := by
    rw [sole]
    exact List.mem_cons_self
  exact List.mem_of_mem_filter there

theorem Rule.present?_eq_some_iff {value text : String} :
    present? value = some text ↔ value = text ∧ text ≠ "" := by
  rw [present?]
  split
  · rename_i empty
    rw [String.isEmpty_iff] at empty
    simp [empty]
  · rename_i filled
    rw [String.isEmpty_iff] at filled
    grind

namespace FieldValue

variable {members : List (String × Json)}

theorem sole?_eq_some_iff {name : String} {value : Json} :
    sole? name members = some value ↔ HasSole members name value := by
  have named : ∀ member ∈ members.filter (fun member => member.1 = name), member.1 = name :=
    fun member there => of_decide_eq_true (List.mem_filter.mp there).2
  rw [sole?, HasSole]
  split
  · rename_i member only
    rw [only] at named ⊢
    obtain ⟨held, kept⟩ := member
    have same : held = name := named _ List.mem_cons_self
    simp [same]
  · rename_i several
    exact iff_of_false nofun fun only => several _ only

/-- A wrapper calls its value valid where its only member of that name is true. -/
theorem validity?_eq_some_true_iff :
    validity? members = some true ↔ HasSole members "Valid" (.boolean true) := by
  rw [validity?]
  split
  · rename_i silent
    refine iff_of_false (by simp) fun sole => ?_
    simpa using List.all_eq_true.mp silent _ sole.mem
  · rw [← sole?_eq_some_iff]
    cases sole? "Valid" members with
    | none => simp
    | some value => cases value <;> simp

/-- An object has a text where it wraps one that is not empty and calls it valid. -/
theorem text?_ofMembers_eq_some_iff {text : String} :
    (ofMembers members).text? = some text ↔
      text ≠ "" ∧ HasSole members "String" (.text text) ∧
        HasSole members "Valid" (.boolean true) := by
  rw [← sole?_eq_some_iff, ← validity?_eq_some_true_iff]
  constructor
  · intro read
    rw [ofMembers] at read
    split at read
    · rename_i value other valid wrapped said
      cases valid with
      | false => cases read
      | true =>
        obtain ⟨rfl, filled⟩ := Rule.present?_eq_some_iff.mp read
        exact ⟨filled, wrapped, said⟩
    · cases read
    · cases read
  · rintro ⟨filled, wrapped, said⟩
    rw [ofMembers, wrapped, said]
    exact Rule.present?_eq_some_iff.mpr ⟨rfl, filled⟩

/-- An object has a flag where it wraps one, calls it valid and wraps no text. -/
theorem flag?_ofMembers_eq_some_iff {flag : Bool} :
    (ofMembers members).flag? = some flag ↔
      HasSole members "Bool" (.boolean flag) ∧ HasSole members "Valid" (.boolean true) ∧
        ∀ text, ¬ HasSole members "String" (.text text) := by
  rw [← sole?_eq_some_iff, ← validity?_eq_some_true_iff]
  constructor
  · intro read
    rw [ofMembers] at read
    split at read
    · cases read
    · rename_i other value valid wrapped said noText
      cases valid with
      | false => cases read
      | true =>
        obtain rfl := Option.some.inj read
        refine ⟨wrapped, said, fun text sole => ?_⟩
        exact noText text (sole?_eq_some_iff.mpr sole)
    · cases read
  · rintro ⟨wrapped, said, noText⟩
    rw [ofMembers, wrapped, said]
    split
    · rename_i text _ sole _
      exact absurd (sole?_eq_some_iff.mp sole) (noText text)
    · rename_i same valid _
      obtain rfl := Json.boolean.inj (Option.some.inj same)
      obtain rfl := Option.some.inj valid
      rfl
    · rename_i noFlag
      exact absurd rfl (noFlag flag true rfl)

theorem ofJson?_text?_eq_some_iff {value : Json} {text : String} :
    (ofJson? value).bind text? = some text ↔ value.GivesText text := by
  rw [Json.GivesText]
  cases value with
  | text value =>
    change Rule.present? value = some text ↔ _
    rw [Rule.present?_eq_some_iff]
    simp [and_comm]
  | object members =>
    change (ofMembers members).text? = some text ↔ _
    rw [text?_ofMembers_eq_some_iff]
    simp
  | _ => simp [ofJson?, text?]

theorem ofJson?_flag?_eq_some_iff {value : Json} {flag : Bool} :
    (ofJson? value).bind flag? = some flag ↔ value.GivesFlag flag := by
  rw [Json.GivesFlag]
  cases value with
  | object members =>
    change (ofMembers members).flag? = some flag ↔ _
    rw [flag?_ofMembers_eq_some_iff]
    simp
  | _ => simp [ofJson?, flag?]

end FieldValue

namespace RuleRecord

/-! ## Records -/

/-- The fields of an array are given once each. -/
theorem SpellsArray.nodup {tokens : List Json.Token} {given : List (RecordField × Json)}
    (spells : SpellsArray tokens given) : (given.map Prod.fst).Nodup := by
  obtain ⟨parts, values, -, -, few, rfl⟩ := spells
  have named : (RecordField.all.zip values).map Prod.fst = RecordField.all.take values.length := by
    rw [List.zip_eq_zip_take_min, Nat.min_eq_right few, List.take_length]
    exact List.map_fst_zip (List.length_take_le ..)
  rw [named]
  exact (List.take_sublist ..).nodup (by decide)

theorem text?_ofGiven {given : List (RecordField × Json)} (distinct : (given.map Prod.fst).Nodup)
    (field : RecordField) :
    (ofGiven given).text? field =
      (given.lookup field).bind fun value => (FieldValue.ofJson? value).bind FieldValue.text? := by
  rw [text?, get?_ofGiven distinct, Option.bind_assoc]

theorem flag?_ofGiven {given : List (RecordField × Json)} (distinct : (given.map Prod.fst).Nodup)
    (field : RecordField) :
    (ofGiven given).flag? field =
      (given.lookup field).bind fun value => (FieldValue.ofJson? value).bind FieldValue.flag? := by
  rw [flag?, get?_ofGiven distinct, Option.bind_assoc]

/-- A record whose fields read as the given values say, and are absent elsewhere. -/
structure Reads (record : RuleRecord) (given : List (RecordField × Json)) : Prop where
  once : (given.map Prod.fst).Nodup
  text : ∀ field text, record.text? field = some text ↔
    ∃ value, given.lookup field = some value ∧ value.GivesText text
  flag : ∀ field flag, record.flag? field = some flag ↔
    ∃ value, given.lookup field = some value ∧ value.GivesFlag flag

theorem reads_ofGiven {given : List (RecordField × Json)} (distinct : (given.map Prod.fst).Nodup) :
    (ofGiven given).Reads given where
  once := distinct
  text field text := by
    rw [text?_ofGiven distinct, Option.bind_eq_some_iff]
    simp only [FieldValue.ofJson?_text?_eq_some_iff]
  flag field flag := by
    rw [flag?_ofGiven distinct, Option.bind_eq_some_iff]
    simp only [FieldValue.ofJson?_flag?_eq_some_iff]

/-- A text that is accepted as a record is an object, or an array of no more elements than there
are fields. A field reads as a text where it is given as one that is not empty, plainly or in a
wrapper that is valid, and as a flag where it is given as one in the same ways; given as anything
else, it reads as absent. -/
theorem fields_of_accepted {bytes : Text.Bytes} {record : RuleRecord}
    (accepted : parse bytes = .ok record) :
    ∃ given, (SpellsObject (Json.lex (Text.Utf8.symbols bytes)) given ∨
        SpellsArray (Json.lex (Text.Utf8.symbols bytes)) given) ∧ record.Reads given := by
  obtain ⟨given, spelled, rfl⟩ := parse_eq_ok_iff.mp accepted
  refine ⟨given, spelled, reads_ofGiven ?_⟩
  obtain ⟨-, -, -, -, -, distinct⟩ | spells := spelled
  · exact distinct
  · exact spells.nodup

/-- An array of four elements, of which the second is a wrapper and the last no text. -/
def fourElements : List Json :=
  [.null, .object [("Valid", .boolean true), ("String", .text "alt")], .text "s1",
    .array [.text "bronze"]]

/-- The wrapped text is read, and the field whose value is an array is absent. -/
theorem fields_of_accepted_array :
    let bytes := (Json.array fourElements).bytes
    ∃ record given, parse bytes = .ok record ∧
      SpellsArray (Json.lex (Text.Utf8.symbols bytes)) given ∧ record.Reads given ∧
      record.text? .streamAlias = some "alt" ∧ record.text? .stages = none := by
  intro bytes
  have reads : Json.read (Json.lex (Text.Utf8.symbols bytes)) = .ok (.array fourElements) :=
    Json.read_bytes (Json.readable_of_integers (by decide)) (by decide)
  have elements := spellsArray_of_read (by decide) reads
  have accepted : parse bytes = .ok (ofGiven (RecordField.all.zip fourElements)) :=
    parse_eq_ok_iff.mpr ⟨_, .inr elements, rfl⟩
  obtain ⟨given, spelled, read⟩ := fields_of_accepted accepted
  have noObject : ¬ SpellsObject (Json.lex (Text.Utf8.symbols bytes)) given := by
    rintro ⟨parts, members, -, split, -⟩
    cases (Json.lex_bytes _).symm.trans split
  exact ⟨_, given, accepted, spelled.resolve_left noObject, read, by decide, by decide⟩

/-- A text that is no object is accepted, and makes a rule that claims an identity. -/
theorem array_makes_rule :
    let bytes := (Json.array [.text "p1"]).bytes
    Json.parse bytes = .ok (.array [.text "p1"]) ∧
      ∃ record, parse bytes = .ok record ∧ record.text? .project = some "p1" ∧
        record.toRule "a.json" = .ok { source := "a.json", project := some "p1" } := by
  intro bytes
  have reads : Json.read (Json.lex (Text.Utf8.symbols bytes)) = .ok (.array [.text "p1"]) :=
    Json.read_bytes (Json.readable_of_integers (by decide)) (by decide)
  have accepted : parse bytes = .ok (ofGiven [(.project, .text "p1")]) :=
    parse_eq_ok_iff.mpr ⟨_, .inr (spellsArray_of_read (by decide) reads), rfl⟩
  exact ⟨congrArg (Except.map Json.normal) reads, _, accepted, by decide, by decide⟩

end RuleRecord

end EventRelay
