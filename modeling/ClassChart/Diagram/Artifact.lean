import ClassChart.Diagram.Basic
import ClassChart.Storage.Procedure

/-!
Diagrams as files: one for every type, in a directory for its package.
-/
namespace ClassChart

def artifactEnding : String := ".puml"

/-- The name of a type without its package; enclosing types stay. -/
def NamedType.localName (type : NamedType) : String :=
  if type.package = "" then type.qualifiedName
  else Text.dropFirst (type.package.length + 1) type.qualifiedName

def NamedType.artifactDirectory (type : NamedType) (out : Path) : Path :=
  if type.package = "" then out else (Text.split '.' type.package).foldl Path.join out

def NamedType.artifactPath (type : NamedType) (out : Path) : Path :=
  (type.artifactDirectory out).join (type.localName ++ artifactEnding)

/-- Write a text to a file and make the directories that it needs. -/
def Path.writeText (path : Path) (text : String) : Procedure (Except OsError Unit) := do
  let above := path.parent
  match ← Procedure.makeDirectories above.root above.parts.reverse with
  | .error e => return .error e
  | .ok () => .write path.text text.toUTF8 .done

namespace Diagram

def writeOne (d : Diagram) (out : Path) (type : NamedType) : Procedure String := do
  let path := type.artifactPath out
  let text ← Procedure.ofAttempt (d.draw type)
  match ← path.writeText text with
  | .error cause => Procedure.fail (.artifactNotWritten path.text cause)
  | .ok () =>
      Procedure.emit (.artifactWritten path.text)
      return path.text

/-- Write the diagrams of all types, in the order of their names. -/
def writeAll (d : Diagram) (out : String) : Procedure (List String) := do
  let written ← d.sortedTypes.mapM (d.writeOne (Path.ofString out))
  Procedure.emit (.artifactsWritten written.length out)
  return written

end Diagram

end ClassChart
