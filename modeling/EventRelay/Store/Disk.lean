import EventRelay.Store.Basic
import EventRelay.Store.Commit

/-!
# Tables on disk

A table is a directory with one commit file for each version. An append writes the record to a
staging file and links that to the name of the next version; where the name is taken it tries the
version after that, so nothing is ever overwritten. Every segment of a table's path becomes one
directory name that stays below the base directory.
-/

namespace EventRelay

open Text (Bytes)

/-- Tables on disk. -/
structure DiskStore where
  /-- The directory that holds all tables. -/
  base : FilePath
  /-- How many versions an append tries. -/
  attempts : Nat
  /-- The number that tells the staging files of one process from those of another. -/
  process : Nat
  /-- How many staging files have been asked for. -/
  staged : Nat
  deriving DecidableEq, Repr

namespace DiskStore

/-- How many versions an append tries unless told otherwise. -/
def defaultAttempts : Nat :=
  16

/-- A store below a directory. -/
def ofBase (base : FilePath) : DiskStore :=
  ⟨base, defaultAttempts, 0, 0⟩

/-- The store that tries the given number of versions, at least one. -/
def withAttempts (store : DiskStore) (attempts : Nat) : DiskStore :=
  { store with attempts := max attempts 1 }

/-- The name of the directory that holds the commit files of a table. -/
def commitsName : String :=
  "_commits"

/-- The characters that stay as they are in a directory name. -/
def isPlain (c : Char) : Bool :=
  c.isAlphanum || c = '-' || c = '_' || c = '.'

/-- A path segment as a directory name. Names that would lead elsewhere are changed further. -/
def directoryName (segment : String) : String :=
  let cleaned := segment.toList.map fun c => if isPlain c then c else '_'
  if cleaned.all (· = '.') || cleaned = commitsName.toList then
    String.ofList (('_' :: cleaned).map fun c => if c = '.' then '_' else c)
  else String.ofList cleaned

/-- The directory names of a table path; empty segments do not count. -/
def directoryNames (path : String) : List String :=
  ((Text.split '/' path).filter fun segment => !segment.isEmpty).map directoryName

/-- The directory that holds the commit files of a table. -/
def commitsOf (store : DiskStore) (path : String) : FilePath :=
  store.base.join (directoryNames path ++ [commitsName])

/-- The versions that a directory holds, in increasing order; there are none where there is no
directory. -/
def versionsIn (files : FileTree) (directory : FilePath) : Except FileError (List Nat) :=
  match files.list directory with
  | .error .notFound => .ok []
  | .error problem => .error problem
  | .ok listed =>
    .ok ((listed.filterMap fun entry => Commit.version? (Text.Utf8.lossy entry.name)).mergeSort)

/-- The version that an append tries first. -/
def firstFree (versions : List Nat) : Nat :=
  match versions.getLast? with
  | none => 1
  | some last => Commit.next last

/-- Why no version could be claimed. -/
inductive ClaimError
  | exhausted
  | file (cause : FileError)
  deriving DecidableEq

/-- Links a record to the first free version, trying so many of them. -/
def claim (files : FileTree) (directory : FilePath) (payload : Bytes) :
    Nat → Nat → Except ClaimError (Nat × FileTree)
  | 0, _ => .error .exhausted
  | more + 1, version =>
    match files.create (directory ++ [Commit.name version]) payload with
    | .ok linked => .ok (version, linked)
    | .error .alreadyExists => claim files directory payload more (Commit.next version)
    | .error problem => .error (.file problem)

/-- The name of the next staging file. -/
def stagingName (store : DiskStore) : String :=
  ".staging-" ++ Decimal.text store.process ++ "-" ++ Decimal.text store.staged

/-- Stages a record and claims a version for it, in a directory that is there. -/
def commit (store : DiskStore) (files : FileTree) (path : String) (directory : FilePath)
    (version : Nat) (payload : Bytes) : Except WriteError Nat × FileTree :=
  let staging := directory ++ [store.stagingName]
  match files.create staging payload with
  | .error problem => (.error (.inputOutput path problem.message), files)
  | .ok staged =>
    match claim staged directory payload store.attempts version with
    | .ok (version, linked) => (.ok version, linked.remove staging)
    | .error .exhausted => (.error (.conflict path store.attempts), staged.remove staging)
    | .error (.file problem) =>
      (.error (.inputOutput path problem.message), staged.remove staging)

/-- Adds a record under the version after the last one. -/
def append (store : DiskStore) (files : FileTree) (path : String) (payload : Bytes) :
    Except WriteError Nat × DiskStore × FileTree :=
  let directory := store.commitsOf path
  match files.makeDirectories directory with
  | (.error problem, made) => (.error (.inputOutput path problem.message), store, made)
  | (.ok (), made) =>
    match versionsIn made directory with
    | .error problem => (.error (.inputOutput path problem.message), store, made)
    | .ok versions =>
      let (answer, after) := store.commit made path directory (firstFree versions) payload
      (answer, { store with staged := store.staged + 1 }, after)

/-- The records of a table, in the order of their versions. -/
def read (store : DiskStore) (files : FileTree) (path : String) :
    Except WriteError (List Bytes) :=
  let directory := store.commitsOf path
  let content := do
    let versions ← versionsIn files directory
    versions.mapM fun version => files.read (directory ++ [Commit.name version])
  content.mapError fun problem => .inputOutput path problem.message

/-- The number of versions of a table. -/
def count (store : DiskStore) (files : FileTree) (path : String) : Except WriteError Nat :=
  match versionsIn files (store.commitsOf path) with
  | .error problem => .error (.inputOutput path problem.message)
  | .ok versions => .ok versions.length

instance : TableStore DiskStore where
  kind _ := "disk"
  append store files path payload limit :=
    let (answer, after, filesAfter) := store.append files path payload
    ⟨.finished limit answer, after, filesAfter⟩
  read store files path limit := ⟨.finished limit (store.read files path), store, files⟩
  count store files path limit := ⟨.finished limit (store.count files path), store, files⟩

end DiskStore

end EventRelay
