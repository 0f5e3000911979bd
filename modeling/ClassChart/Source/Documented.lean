import ClassChart.Model.Catalog
import ClassChart.Source.NameTable

/-!
The documented types of source files: units with their members, and all names
resolved.
-/
namespace ClassChart

namespace SourceUnit

/-- The superclass of a type.  Classes that name none extend the class of all
objects or of all records, and enums the class of all enums. -/
def superclass (unit : SourceUnit) (resolve : String → String) : Option String :=
  match unit.typeKind? with
  | some .classType =>
      match unit.extended with
      | first :: _ => some (resolve first)
      | [] =>
          if unit.isRecord then some "java.lang.Record"
          else if unit.qualifiedName = "java.lang.Object" then none
          else some "java.lang.Object"
  | some .enumType => some "java.lang.Enum"
  | _ => none

/-- The interfaces of a type.  An interface lists first what it extends. -/
def interfaces (unit : SourceUnit) (resolve : String → String) : List (Option String) :=
  let named (written : String) : Option String :=
    let name := resolve written
    if name.isEmpty then none else some name
  let written :=
    if unit.typeKind? = some .interfaceType then unit.extended ++ unit.implemented
    else unit.implemented
  written.map named

/-- The visibility of members without a modifier that says so. -/
def defaultVisibility (unit : SourceUnit) : Visibility :=
  match unit.typeKind? with
  | some .interfaceType => .everyone
  | some .annotationType => .everyone
  | _ => .package

def toField (member owner : SourceUnit) (qualify : String → TypeName) : Field :=
  let written := (member.returnType.filter (!·.isEmpty)).getD "?"
  { name := member.name
    type := qualify written
    modifiers := member.modifiers
    visibility := .ofModifiers member.modifiers owner.defaultVisibility }

/-- Whether a method has no implementation: it says so, or it stands in an
interface without a body and is neither static, default nor private. -/
def declaresAbstract (member owner : SourceUnit) : Bool :=
  member.kind = .method &&
    (member.modifiers.contains "abstract" ||
      (owner.typeKind? = some .interfaceType && !member.hasBody &&
        !(["static", "default", "private"].any member.modifiers.contains)))

def toMethod (member owner : SourceUnit) (qualify : String → TypeName) : Method :=
  let written := (member.returnType.filter (!·.isEmpty)).getD "void"
  let isConstructor := member.kind = .constructor
  { name := member.name
    parameters :=
      { params := member.parameters.map fun p => ⟨some p.name, some (qualify p.type)⟩
        variadic := (member.parameters.getLast?.map SourceParameter.variadic).getD false }
    returnType := if isConstructor then none else some (qualify written)
    modifiers := member.modifiers
    isConstructor
    impliedAbstract := member.declaresAbstract owner
    visibility := .ofModifiers member.modifiers owner.defaultVisibility }

def membersOf (units : List SourceUnit) (owner : SourceUnit) : List SourceUnit :=
  units.filter fun unit =>
    !unit.isType && !owner.qualifiedName.isEmpty && unit.parentName = some owner.qualifiedName

/-- The place from which the supertypes of a type are looked up. -/
def outside (unit : SourceUnit) : Place :=
  ⟨unit.package, unit.imports, unit.parentName⟩

/-- The place from which the types of the members of a type are looked up. -/
def inside (unit : SourceUnit) : Place :=
  ⟨unit.package, unit.imports, some unit.qualifiedName⟩

/-- The documented type of a unit that declares a type. -/
def toNamedType (unit : SourceUnit) (members : List SourceUnit) (table : NameTable) :
    NamedType :=
  let resolve := table.resolve unit.outside
  let qualify := table.qualify unit.inside
  { qualifiedName := unit.qualifiedName
    name := unit.name
    package := unit.package
    kind := .ofWord unit.kind.word
    modifiers := unit.modifiers
    typeParameters := unit.typeParameters
    superclass := unit.superclass resolve
    interfaces := unit.interfaces resolve
    enclosingType := unit.parentName
    methods := (members.filter (·.kind ≠ .field)).map (·.toMethod unit qualify)
    fields := (members.filter (·.kind = .field)).map (·.toField unit qualify)
    tags := unit.tags
    filePath := some unit.filePath }

end SourceUnit

namespace Catalog

/-- The documented types of source files, in the order of their declarations. -/
def typesOf (files : List SourceFile) : List NamedType :=
  let units := files.flatMap SourceFile.units
  let table := NameTable.ofUnits units
  (units.filter SourceUnit.isType).map fun unit =>
    unit.toNamedType (SourceUnit.membersOf units unit) table

def ofFiles (files : List SourceFile) : Logged Catalog := do
  let types := typesOf files
  Logged.emit (.catalogBuilt types.length files.length)
  ofList types

end Catalog

end ClassChart
