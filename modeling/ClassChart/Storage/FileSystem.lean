import ClassChart.Storage.OsError
import ClassChart.Storage.Path
import ClassChart.Storage.Tree

/-!
A file system: a tree of files seen from a working directory, in which single
operations may be refused.
-/
namespace ClassChart

/-- The operations that a file system may refuse. -/
inductive Access where
  | read
  | makeDirectory
  | write
deriving Repr, DecidableEq, Inhabited

/-- Files and directories.  A place is the list of names from the root to it. -/
structure FileSystem where
  root : Tree ByteArray := .directory []
  workingDirectory : List String := []
  refusal : Access → List String → Option Errno := fun _ _ => none
deriving Inhabited

namespace FileSystem

def nameLimit : Nat := 255

def pathLimit : Nat := 4095

/-- One step from a place, which has to be a directory. -/
def step (root : Tree ByteArray) (place : List String) (name : String) :
    Except Errno (List String) :=
  match root.get? place with
  | none => .error .noEntry
  | some (.file _) => .error .notDirectory
  | some (.directory _) =>
      if name = ".." then .ok place.dropLast
      else if nameLimit < name.utf8ByteSize then .error .nameTooLong
      else .ok (place ++ [name])

/-- The place that a path names, whether or not there is an entry.  The directories
on the way have to exist. -/
def locate (fs : FileSystem) (path : String) : Except Errno (List String) :=
  if path = "" then .error .noEntry
  else if pathLimit < path.utf8ByteSize then .error .nameTooLong
  else
    let start := if Path.rootOf path = "" then fs.workingDirectory else []
    (Path.partsOf path).foldlM (step fs.root) start

def entry? (fs : FileSystem) (path : String) : Option (Tree ByteArray) :=
  match fs.locate path with
  | .error _ => none
  | .ok place => fs.root.get? place

/-- Refuse an operation if the file system does. -/
def permit (fs : FileSystem) (access : Access) (path : String) (place : List String) :
    Except OsError Unit :=
  match fs.refusal access place with
  | some errno => .error ⟨errno, path⟩
  | none => .ok ()

/-- The place of a path, or the failure to find it. -/
def placeOf (fs : FileSystem) (path : String) : Except OsError (List String) :=
  (fs.locate path).mapError (⟨·, path⟩)

def read (fs : FileSystem) (path : String) : Except OsError ByteArray := do
  let place ← fs.placeOf path
  match fs.root.get? place with
  | none => throw ⟨.noEntry, path⟩
  | some (.directory _) => throw ⟨.isDirectory, path⟩
  | some (.file content) =>
      fs.permit .read path place
      return content

/-- Make a directory, which must not exist, in one that does. -/
def makeDirectory (fs : FileSystem) (path : String) : Except OsError FileSystem := do
  let place ← fs.placeOf path
  if (fs.root.get? place).isSome then throw ⟨.exists, path⟩
  fs.permit .makeDirectory path place
  return { fs with root := fs.root.put (.directory []) place }

/-- Write a file, in place of the one that may be there. -/
def write (fs : FileSystem) (path : String) (content : ByteArray) :
    Except OsError FileSystem := do
  let place ← fs.placeOf path
  match fs.root.get? place with
  | some (.directory _) => throw ⟨.isDirectory, path⟩
  | _ =>
      fs.permit .write path place
      return { fs with root := fs.root.put (.file content) place }

end FileSystem

end ClassChart
