import EventRelay.Text.Split
import EventRelay.Text.Utf8

/-!
# A tree of files

A tree lists every directory and file below a root, each under the list of names that leads to it.
The root itself is a directory. A path is followed piece by piece: it leads on only through
directories that are there, also where it goes back. A directory is made or removed by its name, so
dots at the end of a path do neither. A name is a string of bytes, while the pieces of a path are
texts: what stands under a name that is no text is shown by its directory alone.
-/

namespace EventRelay

open Text (Bytes)

/-- A path as it is written, by the pieces between its slashes. -/
abbrev FilePath := List String

/-- The place of a file or directory, by the names that lead to it from the root. Two dots stand for
the way out of the root, and a slash for the start of absolute paths. -/
abbrev Place := List String

/-- Why an operation on files is refused. -/
inductive FileError
  | notFound
  | notADirectory
  | isADirectory
  | alreadyExists
  /-- A directory is to be removed by a path that does not end in its name. -/
  | invalidArgument
  | nameTooLong
  /-- A name holds the character that ends names. -/
  | nulInName
  | permissionDenied
  /-- What is stored cannot be got at. -/
  | inputOutput
  deriving DecidableEq, Repr

namespace FileError

/-- The wording of an error. -/
def message : FileError → String
  | .notFound => "No such file or directory (os error 2)"
  | .notADirectory => "Not a directory (os error 20)"
  | .isADirectory => "Is a directory (os error 21)"
  | .alreadyExists => "File exists (os error 17)"
  | .invalidArgument => "Invalid argument (os error 22)"
  | .nameTooLong => "File name too long (os error 36)"
  | .nulInName => "file name contained an unexpected NUL byte"
  | .permissionDenied => "Permission denied (os error 13)"
  | .inputOutput => "Input/output error (os error 5)"

end FileError

instance decEqContent : DecidableEq (Except FileError Bytes)
  | .ok first, .ok second =>
    if same : first = second then isTrue (by rw [same])
    else isFalse fun both => same (Except.ok.inj both)
  | .error first, .error second =>
    if same : first = second then isTrue (by rw [same])
    else isFalse fun both => same (Except.error.inj both)
  | .ok _, .error _ => isFalse nofun
  | .error _, .ok _ => isFalse nofun

/-- Something that stands in a directory. -/
inductive FileNode
  | directory
  /-- A regular file, with what reading it gives. -/
  | file (content : Except FileError Bytes)
  deriving DecidableEq

namespace FileNode

/-- Whether something is a regular file, readable or not. -/
def isFile : FileNode → Bool
  | .directory => false
  | .file _ => true

/-- What reading gives. -/
def read : FileNode → Except FileError Bytes
  | .directory => .error .isADirectory
  | .file content => content

end FileNode

namespace FilePath

/-- The longest name, in bytes. -/
def maxNameLength : Nat :=
  255

/-- The longest path, in bytes. -/
def maxLength : Nat :=
  4095

/-- The path of a text. -/
def ofText (text : String) : FilePath :=
  Text.split '/' text

/-- The text of a path. -/
def text (path : FilePath) : String :=
  Text.join '/' path

/-- The path that goes on with some names; a slash at the end of the path is not doubled. -/
def join (path : FilePath) (names : List String) : FilePath :=
  if path.getLast? = some "" then path.dropLast ++ names else path ++ names

/-- Whether a piece of a path stays where it is. -/
def staysPut (piece : String) : Bool :=
  piece = "" || piece = "."

/-- The path without the pieces at its end that stay where they are. -/
def trimEnd (path : FilePath) : FilePath :=
  (path.reverse.dropWhile staysPut).reverse

/-- The path to the directory that holds what a path leads to. -/
def parent (path : FilePath) : FilePath :=
  trimEnd path.trimEnd.dropLast

/-- Whether a path ends in a name, slashes behind it aside. -/
def endsInName (path : FilePath) : Bool :=
  (path.reverse.find? (· ≠ "")).any fun piece => piece ≠ "." && piece ≠ ".."

/-- Refuses what no tree can hold, whatever else is in it. -/
def check (path : FilePath) : Except FileError Unit :=
  if path.any fun piece => '\x00' ∈ piece.toList then .error .nulInName
  else if maxLength < (Text.Utf8.encode path.text).length then .error .nameTooLong
  else .ok ()

/-- Refuses a name that no directory can hold. -/
def checkName (name : String) : Except FileError Unit :=
  if maxNameLength < (Text.Utf8.encode name).length then .error .nameTooLong else .ok ()

/-- The bytes of the path that goes on with a name, which need not be a text. -/
def withName (directory : FilePath) (name : Bytes) : Bytes :=
  Text.Utf8.encode (directory.join [""]).text ++ name

/-- Whether nothing is in the way of a name in a directory: no limit is passed by it or by the path
to it, and nothing ends it. -/
def reaches (directory : FilePath) (name : Bytes) : Bool :=
  !name.contains 0 && name.length ≤ maxNameLength && (directory.withName name).length ≤ maxLength

/-- Where a path starts from: the root, unless there is a slash in front. -/
def start : FilePath → Place
  | "" :: _ :: _ => ["/"]
  | _ => []

end FilePath

namespace Place

/-- Whether a place is the root or lies around it. -/
def isOutside (place : Place) : Bool :=
  place = ["/"] || place.all (· = "..")

/-- The place one step back. -/
def parent (place : Place) : Place :=
  if place = ["/"] then place
  else if place.isOutside then place ++ [".."]
  else place.dropLast

/-- Where a piece of a path leads that is no name: an empty piece and a dot stay, and two dots go
back. -/
def after? (place : Place) (piece : String) : Option Place :=
  if FilePath.staysPut piece then some place
  else if piece = ".." then some place.parent
  else none

/-- The name under which a place stands directly in a directory, if it does. -/
def nameIn? (directory : Place) (place : Place) : Option String :=
  if place.dropLast = directory then place.getLast? else none

end Place

/-- What a directory shows: a name and what stands under it. -/
structure FileEntry where
  name : Bytes
  node : FileNode
  deriving DecidableEq

/-- What stands in a directory under a name that is no text. -/
structure Stray where
  directory : Place
  name : Bytes
  node : FileNode
  notText : Text.Utf8.decode? name = none
  deriving DecidableEq

/-- All directories and files below a root. -/
structure FileTree where
  /-- What stands under names that are texts. -/
  entries : List (Place × FileNode)
  /-- What stands under other names. -/
  strays : List Stray := []
  deriving DecidableEq

namespace FileTree

/-- The tree of an empty root. -/
def empty : FileTree where
  entries := []

/-- What is at a place; the root and the directories around it are there. -/
def node? (tree : FileTree) (place : Place) : Option FileNode :=
  if place.isOutside then some .directory else tree.entries.lookup place

/-- Where a path leads from a directory, and what is there. -/
def follow (tree : FileTree) (place : Place) : FilePath → Except FileError (Place × FileNode)
  | [] => .ok (place, .directory)
  | piece :: rest =>
    match place.after? piece with
    | some next => tree.follow next rest
    | none =>
      match FilePath.checkName piece with
      | .error problem => .error problem
      | .ok () =>
        match tree.node? (place ++ [piece]) with
        | none => .error .notFound
        | some .directory => tree.follow (place ++ [piece]) rest
        | some (.file content) =>
          if rest.isEmpty then .ok (place ++ [piece], .file content) else .error .notADirectory

/-- Where a path leads, and what is there. An empty path leads nowhere. -/
def stat (tree : FileTree) (path : FilePath) : Except FileError (Place × FileNode) :=
  match path.check with
  | .error problem => .error problem
  | .ok () => if path = [""] then .error .notFound else tree.follow path.start path

/-- Whether a path leads to anything. -/
def exists? (tree : FileTree) (path : FilePath) : Bool :=
  match tree.stat path with
  | .ok _ => true
  | .error _ => false

/-- The content of a file. -/
def read (tree : FileTree) (path : FilePath) : Except FileError Bytes :=
  match tree.stat path with
  | .error problem => .error problem
  | .ok (_, node) => node.read

/-- The place of a directory. -/
def directoryAt (tree : FileTree) (path : FilePath) : Except FileError Place :=
  match tree.stat path with
  | .error problem => .error problem
  | .ok (_, .file _) => .error .notADirectory
  | .ok (place, .directory) => .ok place

/-- What stands directly in a place under names that are texts. -/
def named (tree : FileTree) (place : Place) : List FileEntry :=
  tree.entries.filterMap fun entry =>
    (place.nameIn? entry.1).map fun name => ⟨Text.Utf8.encode name, entry.2⟩

/-- What stands directly in a place under other names. -/
def unnamed (tree : FileTree) (place : Place) : List FileEntry :=
  (tree.strays.filter fun stray => stray.directory = place).map fun stray =>
    ⟨stray.name, stray.node⟩

/-- What stands directly in a place. -/
def contents (tree : FileTree) (place : Place) : List FileEntry :=
  tree.named place ++ tree.unnamed place

/-- What a directory shows, in no particular order. -/
def list (tree : FileTree) (directory : FilePath) : Except FileError (List FileEntry) :=
  (tree.directoryAt directory).map tree.contents

/-- Lists a node at a place that was free. -/
def add (tree : FileTree) (place : Place) (node : FileNode) : FileTree :=
  { tree with entries := tree.entries ++ [(place, node)] }

/-- Makes the directories of a path that are missing, from a directory that is there. A last one
with a dot behind it is not made. What has been made before an error stays. -/
def makeFrom (tree : FileTree) (place : Place) : FilePath → Except FileError Unit × FileTree
  | [] => (.ok (), tree)
  | piece :: rest =>
    match place.after? piece with
    | some next => tree.makeFrom next rest
    | none =>
      match FilePath.checkName piece with
      | .error problem => (.error problem, tree)
      | .ok () =>
        match tree.node? (place ++ [piece]) with
        | some .directory => tree.makeFrom (place ++ [piece]) rest
        | some (.file _) =>
          (.error (if rest.isEmpty then .alreadyExists else .notADirectory), tree)
        | none =>
          if rest.all FilePath.staysPut && "." ∈ rest then (.error .notFound, tree)
          else (tree.add (place ++ [piece]) .directory).makeFrom (place ++ [piece]) rest

/-- Makes the directories of a path that are missing. -/
def makeDirectories (tree : FileTree) (path : FilePath) : Except FileError Unit × FileTree :=
  match path.check with
  | .error problem => (.error problem, tree)
  | .ok () => tree.makeFrom path.start path

/-- The tree with a new file, whose directory must be there and whose name must be free. -/
def create (tree : FileTree) (path : FilePath) (content : Bytes) : Except FileError FileTree :=
  match tree.stat path with
  | .ok _ => .error .alreadyExists
  | .error .notFound =>
    match path.getLast?, tree.follow path.start path.dropLast with
    | some name, .ok (place, .directory) =>
      if (place.after? name).isSome then .error .notFound
      else .ok (tree.add (place ++ [name]) (.file (.ok content)))
    | _, .error problem => .error problem
    | _, _ => .error .notFound
  | .error problem => .error problem

/-- The tree without what paths lead to at a place and below it. -/
def removeAt (tree : FileTree) (place : Place) : FileTree :=
  { tree with entries := tree.entries.filter fun entry => !place.isPrefixOf entry.1 }

/-- The tree without what is below a place. -/
def clearAt (tree : FileTree) (place : Place) : FileTree where
  entries := tree.entries.filter fun entry => entry.1 = place || !place.isPrefixOf entry.1
  strays := tree.strays.filter fun stray => !place.isPrefixOf stray.directory

/-- The tree without the file that a path leads to. -/
def remove (tree : FileTree) (path : FilePath) : FileTree :=
  match tree.stat path with
  | .ok (place, .file _) => tree.removeAt place
  | _ => tree

/-- Removes a directory with everything below it. What is below it goes first, so a directory that
cannot be removed is left empty. -/
def removeDirectory (tree : FileTree) (path : FilePath) : Except FileError Unit × FileTree :=
  match tree.directoryAt path with
  | .error problem => (.error problem, tree)
  | .ok place =>
    let cleared := tree.clearAt place
    if path.endsInName then (.ok (), cleared.removeAt place) else (.error .invalidArgument, cleared)

/-- Writes a file, whose directories are made where they are missing and whose content is replaced
where it is there. Directories made before an error stay. -/
def write (tree : FileTree) (path : FilePath) (content : Bytes) :
    Except FileError Unit × FileTree :=
  match tree.makeDirectories path.parent with
  | (.error problem, made) => (.error problem, made)
  | (.ok (), made) =>
    match made.stat path with
    | .ok (_, .directory) => (.error .isADirectory, made)
    | .ok (place, .file _) => (.ok (), (made.removeAt place).add place (.file (.ok content)))
    | .error _ =>
      match made.create path content with
      | .ok written => (.ok (), written)
      | .error problem => (.error problem, made)

/-- The paths of all files below a directory, each going on from the path of the directory. -/
def filesBelow (tree : FileTree) (directory : FilePath) : List FilePath :=
  match tree.directoryAt directory with
  | .error _ => []
  | .ok place =>
    tree.entries.filterMap fun entry =>
      match entry.2 with
      | .directory => none
      | .file _ =>
        if place.isPrefixOf entry.1 then some (directory.join (entry.1.drop place.length))
        else none

end FileTree

end EventRelay
