import ClassChart.Source.File
import ClassChart.Storage.Procedure
import ClassChart.Text.Utf8

/-!
Reading the sources below a directory.
-/
namespace ClassChart

def entryPath (directory name : String) : String :=
  if directory = "" || Text.finishesWith "/" directory then directory ++ name
  else directory ++ "/" ++ name

def sortByName {β : Type} (xs : List (String × β)) : List (String × β) :=
  xs.mergeSort fun a b => (compare a.1 b.1).isLE

namespace Tree

variable {α : Type}

/-- The names of the sources among the entries of a directory. -/
def sourceNames : List (String × Tree α) → List String
  | [] => []
  | (name, .file _) :: rest =>
      if isSourceFile name then name :: sourceNames rest else sourceNames rest
  | (_, .directory _) :: rest => sourceNames rest

mutual

/-- The paths of the sources below a directory: those in it by name, then those of
its subdirectories by name. -/
def sources (path : String) : Tree α → List String
  | .file _ => []
  | .directory entries =>
      let own := (sourceNames entries).mergeSort fun a b => (compare a b).isLE
      own.map (entryPath path) ++ (sortByName (sourcesBelow path entries)).flatMap Prod.snd

/-- The subdirectories that are searched, with the paths of their sources. -/
def sourcesBelow (path : String) : List (String × Tree α) → List (String × List String)
  | [] => []
  | (name, entry) :: rest =>
      if !entry.isDirectory || isSkippedDirectory name then sourcesBelow path rest
      else (name, entry.sources (entryPath path name)) :: sourcesBelow path rest

end

end Tree

namespace SourceFile

/-- The sources below a directory.  There are none if it is missing. -/
def pathsBelow (root : String) : Procedure (List String) :=
  .list root fun
    | none => .done []
    | some tree => .done (tree.sources root)

/-- The path of a file as it is recorded when it is read from `root`. -/
def recordedPath (path root : String) : String :=
  if root ≠ "" && Text.beginsWith root path then
    String.ofList ((path.toList.drop root.length).dropWhile fun c => c == '/' || c == '\\')
  else path

def unreadable (filePath : String) (cause : OsError) : SourceFile :=
  { filePath, language := "java", problems := [⟨filePath, 0, cause.message, "error"⟩] }

def readFrom (path root : String) : Procedure SourceFile := do
  if (languageOf? path).isNone then Procedure.fail (.unsupportedFile path)
  else
    let recorded := recordedPath path root
    .read path fun
      | .ok bytes =>
          let text := String.ofList (Text.unifyNewlines (Text.ofUtf8 bytes).toList)
          .done (ofText text recorded)
      | .error cause => do
          Procedure.emit (.fileUnreadable path cause)
          return unreadable recorded cause

/-- Read a source file of a directory and report its problems. -/
def readReporting (root path : String) : Procedure SourceFile := do
  let file ← readFrom path root
  file.problems.forM fun p => Procedure.emit (.fileProblem p.filePath p.line p.message)
  return file

def readAll (root : String) : Procedure (List SourceFile) := do
  let paths ← pathsBelow root
  let files ← paths.mapM (readReporting root)
  Procedure.emit (.directoryRead files.length root)
  return files

end SourceFile

end ClassChart
