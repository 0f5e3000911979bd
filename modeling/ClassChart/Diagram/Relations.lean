import ClassChart.Diagram.RelationTag

/-!
All relationships of a type: to its superclass, to its interfaces in the order of
their declaration, to its enclosing type, and those that tags state.  Of equal
ones the first is kept.
-/
namespace ClassChart

/-- What decides which relationships of a type are drawn. -/
structure Relations where
  catalog : Catalog
  /-- Supertypes that are never drawn. -/
  excluded : List String := []
  /-- Whether the tags of a type are read. -/
  readTags : Bool := false

namespace Relations

/-- A relationship of one type to another by an arrow. -/
def link (other : String) (arrow : Arrow) (type : String) : Attempt Relationship :=
  Attempt.ofExcept (Relationship.make (some ⟨other, none⟩) arrow.text (some ⟨type, none⟩))

/-- The relationship to the superclass, if one is drawn. -/
def toSuperclass (rs : Relations) (type : NamedType) : Attempt (List Relationship) :=
  match type.superclass with
  | none => do
      Attempt.emit (.noSuperclass type.qualifiedName)
      return []
  | some superclass =>
      if rs.excluded.contains superclass then do
        Attempt.emit (.superclassExcluded superclass type.qualifiedName)
        return []
      else return [← link superclass .extension type.qualifiedName]

/-- The relationship to one interface, if it is drawn. -/
def toInterface (rs : Relations) (type : NamedType) :
    Option String → Attempt (List Relationship)
  | none => do
      Attempt.emit (.interfaceUnnamed type.qualifiedName)
      return []
  | some interface =>
      if rs.excluded.contains interface then do
        Attempt.emit (.interfaceExcluded interface type.qualifiedName)
        return []
      else return [← link interface .implementation type.qualifiedName]

/-- The relationship to the enclosing type, if there is one. -/
def toEnclosing (type : NamedType) : Attempt (List Relationship) :=
  match type.enclosingType with
  | none => return []
  | some outer => return [← link outer .containment type.qualifiedName]

/-- Something besides its declaration that states relationships of a type. -/
abbrev Source := NamedType → Attempt (List Relationship)

/-- The sources that are asked: the tags, if they are read. -/
def sources (rs : Relations) : List Source :=
  if rs.readTags then [RelationTag.relationships rs.catalog] else []

/-- All relationships of a type, each once. -/
def ofType (rs : Relations) (type : NamedType) (sources : List Source := rs.sources) :
    Attempt (List Relationship) := do
  let superclass ← rs.toSuperclass type
  let interfaces ← type.interfaces.mapM (rs.toInterface type)
  let enclosing ← toEnclosing type
  let stated ← sources.mapM fun source => source type
  let found := keepFirst Relationship.sameEdge
    (superclass ++ interfaces.flatten ++ enclosing ++ stated.flatten)
  Attempt.emit (.relationshipsFound found.length type.qualifiedName)
  return found

/-- All relationships of a type that may be missing. -/
def ofType? (rs : Relations) (type? : Option NamedType) (sources : List Source := rs.sources) :
    Attempt (List Relationship) :=
  match type? with
  | none => throw .nothingToResolve
  | some type => rs.ofType type sources

end Relations

end ClassChart
