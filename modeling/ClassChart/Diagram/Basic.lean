import ClassChart.Diagram.Relations
import ClassChart.Diagram.Scene

/-!
The diagram of a type: its box with its members, then its relationships.
-/
namespace ClassChart

/-- What diagrams are drawn from. -/
structure Diagram where
  catalog : Catalog
  settings : Settings := {}
deriving Repr, DecidableEq, Inhabited

namespace Diagram

/-- The relationships that the settings ask for. -/
def relations (d : Diagram) : Relations :=
  { catalog := d.catalog
    excluded := d.settings.excludedReferences
    readTags := d.settings.relationTags }

/-- The links of a scene, each edge once. -/
def links (d : Diagram) (scene : Scene) : Attempt (List Link) := do
  let found ← d.relations.ofType scene.subject
  return keepFirst Link.sameEdge (found.map (Link.ofRelationship scene))

/-- The opening of a diagram: its first line and the box of its subject. -/
def openWith (scene : Scene) : Canvas :=
  let subject := scene.subject
  let w := (({} : Writer).append "@startuml").newline
  let w := (w.append subject.keyword).whitespace
  let w := (w.append (scene.shorten subject.qualifiedName)).append subject.generics
  let w := MemberBlock.write subject.fields subject.methods scene.settings w
  (Canvas.mk [] w.newline.newline).markDeclared subject.qualifiedName

def draw (d : Diagram) (subject : NamedType) : Attempt String := do
  let scene : Scene := ⟨d.catalog, d.settings, subject⟩
  let links ← d.links scene
  let canvas ← ExceptT.lift ((openWith scene).drawAll scene links)
  let w := (canvas.writer.append "@enduml").newline
  Attempt.emit (.diagramDrawn subject.qualifiedName links.length)
  return w.text

/-- The diagram of a type that may be missing. -/
def draw? (d : Diagram) : Option NamedType → Attempt String
  | none => throw .nothingToDraw
  | some subject => d.draw subject

def drawNamed (d : Diagram) (name : String) : Attempt String :=
  match d.catalog.find? name with
  | none => throw (.unknownType name)
  | some subject => d.draw subject

/-- The documented types in the order of their qualified names. -/
def sortedTypes (d : Diagram) : List NamedType :=
  d.catalog.types.mergeSort fun a b => (compare a.qualifiedName b.qualifiedName).isLE

/-- The diagrams of all types with their names, in the order of the names. -/
def drawAll (d : Diagram) : Attempt (List (String × String)) :=
  d.sortedTypes.mapM fun type => do return (type.qualifiedName, ← d.draw type)

end Diagram

end ClassChart
