import EventRelay.Json.Reader
import EventRelay.Json.Skim
import EventRelay.Rule.Basic
import EventRelay.Text.Quoted

/-!
# Rule records

A rule is recorded as a JSON object, or as an array of the same fields in a fixed order. A field is
given plainly or in a wrapper that says whether its value is valid. Members that are no fields are
passed over without being read.
-/

namespace EventRelay

open Json (Token Scan Progress SyntaxError)

/-- A field of a rule record. -/
inductive RecordField
  | project
  | streamAlias
  | stream
  | stages
  | active
  | messageType
  | folderName
  deriving DecidableEq, Repr

namespace RecordField

/-- All fields in the order in which an array lists them. -/
def all : List RecordField :=
  [.project, .streamAlias, .stream, .stages, .active, .messageType, .folderName]

/-- The name of a field. -/
def name : RecordField → String
  | .project => "project_id"
  | .streamAlias => "stream_alt_id"
  | .stream => "stream_id"
  | .stages => "stages"
  | .active => "active"
  | .messageType => "message_type"
  | .folderName => "folder_name"

/-- The field of a name. -/
def ofName? (name : String) : Option RecordField :=
  all.find? fun field => field.name = name

end RecordField

/-- A field value that is there. -/
inductive FieldValue
  | wrappedText (value : String) (valid : Bool)
  | wrappedFlag (value : Bool) (valid : Bool)
  | plain (value : Json)

namespace FieldValue

/-- The value of the one member with a name; none where the name is missing or repeated. -/
def sole? (name : String) (members : List (String × Json)) : Option Json :=
  match members.filter fun member => member.1 = name with
  | [member] => some member.2
  | _ => none

/-- Whether a wrapper calls its value valid: it does not where it is silent, and it is no wrapper
where it says anything but true or false, or speaks twice. -/
def validity? (members : List (String × Json)) : Option Bool :=
  if members.all fun member => member.1 ≠ "Valid" then some false
  else
    match sole? "Valid" members with
    | some (.boolean valid) => some valid
    | _ => none

/-- The field value of the members of an object: a wrapped text, else a wrapped flag, else the
object itself. -/
def ofMembers (members : List (String × Json)) : FieldValue :=
  match sole? "String" members, sole? "Bool" members, validity? members with
  | some (.text value), _, some valid => .wrappedText value valid
  | _, some (.boolean value), some valid => .wrappedFlag value valid
  | _, _, _ => .plain (.object members)

/-- The field value of a JSON value; null is absent. -/
def ofJson? : Json → Option FieldValue
  | .null => none
  | .object members => some (ofMembers members)
  | value => some (.plain value)

/-- The text of a field value, unless it is empty, invalid or no text. -/
def text? : FieldValue → Option String
  | .wrappedText value true => Rule.present? value
  | .plain (.text value) => Rule.present? value
  | _ => none

/-- The flag of a field value, unless it is invalid or no flag. -/
def flag? : FieldValue → Option Bool
  | .wrappedFlag value true => some value
  | .plain (.boolean value) => some value
  | _ => none

end FieldValue

/-- Why a text is no rule record. -/
inductive RecordError
  | syntactic (cause : SyntaxError)
  | duplicateField (field : RecordField)
  /-- The text is a JSON value of another kind. -/
  | otherKind (found : String)
  deriving DecidableEq

namespace RecordError

/-- The wording of an error. -/
def message : RecordError → String
  | .syntactic cause => cause.message
  | .duplicateField field => "duplicate field `" ++ field.name ++ "`"
  | .otherKind found => "invalid type: " ++ found ++ ", expected struct RuleRecord"

end RecordError

/-- The fields of a rule record that have been given, with their values. -/
structure RuleRecord where
  fields : List (RecordField × Option FieldValue)

namespace RuleRecord

/-- Whether a field has been given, be it as null. -/
def has (record : RuleRecord) (field : RecordField) : Bool :=
  record.fields.any fun given => given.1 = field

/-- The value of a field that has been given and is not null. -/
def get? (record : RuleRecord) (field : RecordField) : Option FieldValue :=
  (record.fields.lookup field).join

/-- The record with one more field. -/
def set (record : RuleRecord) (field : RecordField) (value : Json) : RuleRecord :=
  ⟨(field, FieldValue.ofJson? value) :: record.fields⟩

/-- The text of a field. -/
def text? (record : RuleRecord) (field : RecordField) : Option String :=
  (record.get? field).bind FieldValue.text?

/-- The flag of a field. -/
def flag? (record : RuleRecord) (field : RecordField) : Option Bool :=
  (record.get? field).bind FieldValue.flag?

/-- The rule of a record. A chain that cannot be read is refused first, then a rule that no event
can match. -/
def toRule (record : RuleRecord) (source : String) : Except RuleError Rule := do
  let chain ←
    match record.text? .stages with
    | none => pure none
    | some text =>
      let chain ← Chain.parse text
      pure (if chain.stages.isEmpty then none else some chain)
  let rule : Rule :=
    { source
      project := record.text? .project
      streamAlias := record.text? .streamAlias
      stream := record.text? .stream
      chain
      active := (record.flag? .active).getD true
      messageType := record.text? .messageType
      folderName := record.text? .folderName }
  rule.validate
  pure rule

namespace Reading

/-- Where the reading of a record stands between two tokens. -/
inductive State
  /-- Before the record. -/
  | start
  /-- After the opening brace. -/
  | firstName
  /-- After a comma between members. -/
  | nextName (record : RuleRecord)
  /-- After the name of a member, which may be a field. -/
  | colon (record : RuleRecord) (field : Option RecordField)
  /-- Inside the value of a field. -/
  | value (record : RuleRecord) (field : RecordField) (inner : Json.Reader.State)
  /-- Inside the value of a member that is no field. -/
  | skipped (record : RuleRecord) (inner : Json.Skim.State)
  /-- After a member. -/
  | afterMember (record : RuleRecord)
  /-- After the opening bracket. -/
  | firstItem
  /-- After a comma, before the first of the remaining fields. -/
  | nextItem (record : RuleRecord) (field : RecordField) (later : List RecordField)
  /-- Inside the value of a field, before the remaining ones. -/
  | item (record : RuleRecord) (field : RecordField) (later : List RecordField)
      (inner : Json.Reader.State)
  /-- After an element, before the remaining fields. -/
  | afterItem (record : RuleRecord) (later : List RecordField)
  /-- After a comma that no field can follow. -/
  | surplus

/-- How many containers a value inside a record may have open at once. -/
def room : Nat :=
  Json.maxDepth - 1

/-- The record without fields. -/
def none : RuleRecord :=
  ⟨[]⟩

/-- Errors of the JSON text as errors of the record. -/
def lift {α : Type} (outcome : Except SyntaxError α) : Except RecordError α :=
  outcome.mapError .syntactic

/-- The text of a number that stands in place of a record. -/
def numberText (value : Number) : String :=
  let word :=
    match value with
    | .integer _ => "integer"
    | .float _ _ => "floating point"
  word ++ " `" ++ String.ofList value.numeral.spelling ++ "`"

/-- The step on the first token of a text that is no record. -/
def refuse : Token → RecordError
  | .null => .otherKind "null"
  | .boolean value => .otherKind ("boolean `" ++ (if value then "true" else "false") ++ "`")
  | .number numeral =>
    match Json.numberOf numeral with
    | .ok value => .otherKind (numberText value)
    | .error cause => .syntactic cause
  | .text pieces =>
    match Json.textOf .closed pieces with
    | .ok value => .otherKind ("string " ++ Text.quote value)
    | .error cause => .syntactic cause
  | .brokenText pieces cause =>
    match Json.textOf (.broken cause) pieces with
    | .ok value => .otherKind ("string " ++ Text.quote value)
    | .error cause => .syntactic cause
  | .brokenNumber cause => .syntactic cause.numberError
  | .brokenWord cause => .syntactic cause.wordError
  | _ => .syntactic .expectedValue

/-- The step on the name of a member. A field that is given again is refused at its name. -/
def member (record : RuleRecord) (token : Token) :
    Except RecordError (Progress State RuleRecord) := do
  let name ← lift (Json.Reader.nameOf token)
  match RecordField.ofName? name with
  | some field =>
    if record.has field then throw (.duplicateField field)
    else pure (.going (.colon record (some field)))
  | Option.none => pure (.going (.colon record Option.none))

/-- One token inside the value of a field; `after` is what follows the value. -/
def advance (inner : Json.Reader.State) (token : Token) (going : Json.Reader.State → State)
    (after : Json → State) : Except RecordError (Progress State RuleRecord) := do
  match ← lift (Json.Reader.step room inner token) with
  | .going next => pure (.going (going next))
  | .complete value => pure (.going (after value))

/-- One token inside an element of an array. -/
def advanceItem (record : RuleRecord) (field : RecordField) (later : List RecordField)
    (inner : Json.Reader.State) (token : Token) :
    Except RecordError (Progress State RuleRecord) :=
  advance inner token (.item record field later) fun value =>
    .afterItem (record.set field value) later

/-- One token. -/
def step : State → Token → Except RecordError (Progress State RuleRecord)
  | .start, .openObject => .ok (.going .firstName)
  | .start, .openArray => .ok (.going .firstItem)
  | .start, token => .error (refuse token)
  | .firstName, .closeObject => .ok (.complete none)
  | .firstName, token => member none token
  | .nextName _, .closeObject => .error (.syntactic .trailingComma)
  | .nextName record, token => member record token
  | .colon record (some field), .colon => .ok (.going (.value record field (.value [])))
  | .colon record Option.none, .colon => .ok (.going (.skipped record (.value [])))
  | .colon _ _, _ => .error (.syntactic .expectedColon)
  | .value record field inner, token =>
    advance inner token (.value record field) fun value => .afterMember (record.set field value)
  | .skipped record inner, token => do
    match ← lift (Json.Skim.step inner token) with
    | .going next => pure (.going (.skipped record next))
    | .complete () => pure (.going (.afterMember record))
  | .afterMember record, .closeObject => .ok (.complete record)
  | .afterMember record, .comma => .ok (.going (.nextName record))
  | .afterMember _, _ => .error (.syntactic .expectedCommaOrCloseObject)
  | .firstItem, .closeArray => .ok (.complete none)
  | .firstItem, token =>
    advanceItem none .project (RecordField.all.drop 1) (.value []) token
  | .nextItem _ _ _, .closeArray => .error (.syntactic .trailingComma)
  | .nextItem record field later, token => advanceItem record field later (.value []) token
  | .item record field later inner, token => advanceItem record field later inner token
  | .afterItem record _, .closeArray => .ok (.complete record)
  | .afterItem record (field :: later), .comma => .ok (.going (.nextItem record field later))
  | .afterItem _ (_ :: _), _ => .error (.syntactic .expectedCommaOrCloseArray)
  | .afterItem _ [], .comma => .ok (.going .surplus)
  | .afterItem _ [], _ => .error (.syntactic .trailingCharacters)
  | .surplus, .closeArray => .error (.syntactic .trailingComma)
  | .surplus, _ => .error (.syntactic .trailingCharacters)

/-- The error where the input ends too early. -/
def endProblem : State → RecordError
  | .start => .syntactic .endInValue
  | .firstName => .syntactic .endInObject
  | .nextName _ => .syntactic .endInValue
  | .colon _ _ => .syntactic .endInObject
  | .value _ _ inner => .syntactic (Json.Reader.endProblem inner)
  | .skipped _ inner => .syntactic (Json.Skim.endProblem inner)
  | .afterMember _ => .syntactic .endInObject
  | .firstItem => .syntactic .endInArray
  | .nextItem _ _ _ => .syntactic .endInValue
  | .item _ _ _ inner => .syntactic (Json.Reader.endProblem inner)
  | .afterItem _ _ => .syntactic .endInArray
  | .surplus => .syntactic .trailingCharacters

end Reading

/-- The machine that reads a rule record. -/
def reading : Scan Reading.State RecordError RuleRecord :=
  ⟨Reading.step, Reading.endProblem⟩

/-- The rule record that a byte string spells. -/
def parse (bytes : Text.Bytes) : Except RecordError RuleRecord := do
  let (record, rest) ← reading.run .start (Json.lex (Text.Utf8.symbols bytes))
  if rest.isEmpty then pure record else throw (.syntactic .trailingCharacters)

end RuleRecord

end EventRelay
