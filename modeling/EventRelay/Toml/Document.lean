import EventRelay.Toml.Scalar
import EventRelay.Toml.Table
import EventRelay.Toml.Text

/-!
# Reading TOML documents

A document is a list of statements, each on a line of its own: a header that opens a table, or a key
with a value for the table that is open. The readers give what they read with the characters after
it, and nothing where the text is no TOML.
-/

namespace EventRelay.Toml

/-- One line of a document that is not blank. -/
inductive Statement
  | table (path : List String) (name : String)
  | element (path : List String) (name : String)
  | entry (path : List String) (name : String) (value : Value)

namespace Document

/-- Parts of a key, at most. -/
def maxKeyParts : Nat :=
  79

/-- Arrays and tables that are open inside each other in one value, at most. -/
def maxDepth : Nat :=
  79

/-- The characters after blanks. -/
def skipBlanks (chars : List Char) : List Char :=
  chars.dropWhile Text.isBlank

/-- The characters after blanks, comments and line breaks; `comment` holds inside a comment. -/
def skipTrivia : Bool → List Char → Option (List Char)
  | _, [] => some []
  | _, '\n' :: rest => skipTrivia false rest
  | _, '\r' :: '\n' :: rest => skipTrivia false rest
  | true, c :: rest => if Text.isLineChar c then skipTrivia true rest else none
  | false, '#' :: rest => skipTrivia true rest
  | false, c :: rest => if Text.isBlank c then skipTrivia false rest else some (c :: rest)

/-- The characters after the rest of a line on which only a comment may stand. -/
def endLine (chars : List Char) : Option (List Char) :=
  let rest :=
    match skipBlanks chars with
    | '#' :: comment => comment.dropWhile Text.isLineChar
    | other => other
  if rest.isEmpty then some [] else Text.afterNewline? rest

/-- Holds for the characters of a key without quotes. -/
def isBareChar (c : Char) : Bool :=
  c.isAlphanum || c = '-' || c = '_'

/-- One part of a key. -/
def keyPart (chars : List Char) : Option (String × List Char) :=
  match chars with
  | '"' :: rest => (Text.basic rest).map fun (text, rest) => (String.ofList text, rest)
  | '\'' :: rest => (Text.literal rest).map fun (text, rest) => (String.ofList text, rest)
  | _ =>
    let bare := chars.takeWhile isBareChar
    if bare.isEmpty then none else some (String.ofList bare, chars.drop bare.length)

/-- The parts of a key, with the characters after the blanks that follow it. -/
def keyParts (chars : List Char) : Option (List String × List Char) :=
  match keyPart (skipBlanks chars) with
  | none => none
  | some (part, rest) =>
    match skipBlanks rest with
    | '.' :: more =>
      if more.length < chars.length then
        (keyParts more).map fun (parts, rest) => (part :: parts, rest)
      else none
    | other => some ([part], other)
termination_by chars.length

/-- A key as the path before its last part, and that part. -/
def key (chars : List Char) : Option ((List String × String) × List Char) := do
  let (parts, rest) ← keyParts chars
  let name ← parts.getLast?
  if parts.length ≤ maxKeyParts then pure ((parts.dropLast, name), rest) else none

/-- The elements of an array, from its opening bracket on. -/
def elements (value : List Char → Option (Value × List Char)) (chars : List Char) :
    Option (List Value × List Char) := do
  match ← skipTrivia false chars with
  | ']' :: rest => pure ([], rest)
  | start =>
    let (element, rest) ← value start
    match ← skipTrivia false rest with
    | ',' :: more =>
      if more.length < chars.length then
        let (others, rest) ← elements value more
        pure (element :: others, rest)
      else none
    | ']' :: rest => pure ([element], rest)
    | _ => none
termination_by chars.length

/-- A key and its value. -/
def pair (value : List Char → Option (Value × List Char)) (chars : List Char) :
    Option ((List String × String × Value) × List Char) := do
  let ((path, name), rest) ← key chars
  match rest with
  | '=' :: rest =>
    let (value, rest) ← value (skipBlanks rest)
    pure ((path, name, value), rest)
  | _ => none

/-- The entries of a table on one line, given what has been entered so far. -/
def inlineEntries (value : List Char → Option (Value × List Char)) (draft : Draft)
    (chars : List Char) : Option (Draft × List Char) := do
  let ((path, name, entry), rest) ← pair value chars
  let draft ← draft.enter path name entry
  match skipBlanks rest with
  | ',' :: more =>
    if more.length < chars.length then inlineEntries value draft more else none
  | '}' :: rest => pure (draft, rest)
  | _ => none
termination_by chars.length

/-- A table on one line, from its opening brace on. -/
def inlineTable (value : List Char → Option (Value × List Char)) (chars : List Char) :
    Option (Value × List Char) :=
  match skipBlanks chars with
  | '}' :: rest => some (.table [], rest)
  | start => (inlineEntries value .empty start).map fun (draft, rest) => (draft.item.toValue, rest)

/-- A value that is neither an array nor a table. -/
def plainValue (chars : List Char) : Option (Value × List Char) :=
  match chars with
  | '"' :: _ => (Text.any chars).map fun (text, rest) => (.text text, rest)
  | '\'' :: _ => (Text.any chars).map fun (text, rest) => (.text text, rest)
  | _ => Scalar.read chars

/-- A value that opens at most the given number of arrays and tables inside each other. -/
def value : Nat → List Char → Option (Value × List Char)
  | 0, chars => plainValue chars
  | depth + 1, chars =>
    match chars with
    | '[' :: rest => (elements (value depth) rest).map fun (items, rest) => (.array items, rest)
    | '{' :: rest => inlineTable (value depth) rest
    | _ => plainValue chars

/-- A statement, with the characters after its line. -/
def statement (chars : List Char) : Option (Statement × List Char) := do
  match chars with
  | '[' :: '[' :: rest =>
    match ← key rest with
    | ((path, name), ']' :: ']' :: rest) => pure (.element path name, ← endLine rest)
    | _ => none
  | '[' :: rest =>
    match ← key rest with
    | ((path, name), ']' :: rest) => pure (.table path name, ← endLine rest)
    | _ => none
  | _ =>
    let ((path, name, entry), rest) ← pair (value maxDepth) chars
    pure (.entry path name entry, ← endLine rest)

/-- The statements of a document. -/
def statements (chars : List Char) : Option (List Statement) := do
  match ← skipTrivia false chars with
  | [] => pure []
  | start =>
    let (first, rest) ← statement start
    if rest.length < chars.length then
      let others ← statements rest
      pure (first :: others)
    else none
termination_by chars.length

/-- The document under construction: its tables, and the path of the table that is open. -/
structure Progress where
  root : Draft
  current : List String

/-- Takes one statement. -/
def Progress.take (progress : Progress) : Statement → Option Progress
  | .table path name => do
    let root ← progress.root.openTable path name
    pure ⟨root, path ++ [name]⟩
  | .element path name => do
    let root ← progress.root.openElement path name
    pure ⟨root, path ++ [name]⟩
  | .entry path name entry => do
    let root ← progress.root.changeAt false (fun table => table.enter path name entry)
      progress.current
    pure { progress with root }

end Document

/-- The entries of the document that a text spells; a mark for the order of bytes may stand in front
of it. -/
def parse (text : String) : Option (List (String × Value)) := do
  let chars :=
    match text.toList with
    | '\uFEFF' :: rest => rest
    | chars => chars
  let statements ← Document.statements chars
  let progress ← statements.foldlM Document.Progress.take ⟨.empty, []⟩
  pure (valuesOf progress.root.entries)

end EventRelay.Toml
