import EventRelay.Endpoint

/-!
# What a run reads and prints

A run is handed its working directory as one line, an object with the text of every file under its
path. A stage that is being served then takes one request a line and answers each with one line.
-/

namespace EventRelay.CommandLine

/-- The trees that hold one more file each. -/
def addFiles (files : FileTree) : List (String × Json) → Except String FileTree
  | [] => .ok files
  | (path, .text content) :: rest =>
    match files.write (.ofText path) (Text.Utf8.encode content) with
    | (.ok (), written) => addFiles written rest
    | (.error problem, _) => .error (path ++ ": " ++ problem.message)
  | (path, _) :: _ => .error (path ++ ": not a text")

/-- The working directory that a line describes; a blank line describes an empty one. -/
def filesOfLine (line : String) : Except String FileTree :=
  if Text.isBlankText line then .ok .empty
  else
    match Json.parseText line with
    | .error problem => .error problem.message
    | .ok (.object members) => addFiles .empty members
    | .ok _ => .error "not an object"

/-- The characters before the first blank, and the characters after it. -/
def cutAtBlank (chars : List Char) : List Char × List Char :=
  (chars.takeWhile (· ≠ ' '), (chars.dropWhile (· ≠ ' ')).drop 1)

/-- The request of a line: a method, a target and a body with blanks between them. -/
def requestOfLine (line : String) : Request :=
  let (method, rest) := cutAtBlank line.toList
  let (target, body) := cutAtBlank rest
  { method := String.ofList method
    target := String.ofList target
    body := Text.Utf8.encode (String.ofList body) }

/-- The line of a response: its status and, where there is one, its body. -/
def lineOfResponse (response : Response) : String :=
  Decimal.text response.status ++
    match Text.Utf8.decode? response.content with
    | some "" => ""
    | some content => " " ++ content
    | none => ""

end EventRelay.CommandLine
