import ClassChart.Model.NamedType

/-!
What is read from source files: one unit per declared type, method, constructor
and field, with all type names as written.
-/
namespace ClassChart

/-- What a unit declares. -/
inductive UnitKind where
  | type (kind : TypeKind)
  | method
  | constructor
  | field
  | other (word : String)
deriving Repr, DecidableEq, Inhabited

def UnitKind.word : UnitKind → String
  | .type kind => kind.word
  | .method => "method"
  | .constructor => "constructor"
  | .field => "field"
  | .other word => word

def UnitKind.ofWord (word : String) : UnitKind :=
  match TypeKind.ofWord? word with
  | some kind => .type kind
  | none =>
      if word = "method" then .method
      else if word = "constructor" then .constructor
      else if word = "field" then .field
      else .other word

/-- A parameter as written.  The type of a variadic one is an array type. -/
structure SourceParameter where
  name : String
  type : String
  variadic : Bool := false
deriving Repr, DecidableEq, Inhabited

/-- A declaration.  Types carry their supertypes, members the name of the type
that declares them. -/
structure SourceUnit where
  kind : UnitKind
  name : String
  qualifiedName : String
  package : String := ""
  filePath : String
  firstLine : Nat := 1
  lastLine : Nat := 1
  signature : Option String := none
  description : Option String := none
  /-- The qualified name of the type in which the declaration stands. -/
  parentName : Option String := none
  modifiers : List String := []
  annotations : List String := []
  typeParameters : List String := []
  extended : List String := []
  implemented : List String := []
  tags : List (String × String) := []
  /-- The return type of a method, the type of a field. -/
  returnType : Option String := none
  parameters : List SourceParameter := []
  hasBody : Bool := true
  /-- What the file imports. -/
  imports : List String := []
  isRecord : Bool := false
deriving Repr, DecidableEq, Inhabited

/-- The kind of type that a unit declares, if it declares a type. -/
def SourceUnit.typeKind? (unit : SourceUnit) : Option TypeKind :=
  match unit.kind with
  | .type kind => some kind
  | _ => none

def SourceUnit.isType (unit : SourceUnit) : Bool :=
  unit.typeKind?.isSome

/-- Something wrong with a file. -/
structure Problem where
  filePath : String
  line : Nat
  message : String
  severity : String := "warning"
deriving Repr, DecidableEq, Inhabited

/-- A source file with what was read from it. -/
structure SourceFile where
  filePath : String
  language : String
  package : String := ""
  units : List SourceUnit := []
  imports : List String := []
  lineCount : Nat := 0
  problems : List Problem := []
deriving Repr, DecidableEq, Inhabited

def SourceFile.types (file : SourceFile) : List SourceUnit :=
  file.units.filter SourceUnit.isType

end ClassChart
