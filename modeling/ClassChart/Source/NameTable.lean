import ClassChart.Model.TypeName
import ClassChart.Source.Unit
import ClassChart.Text.Blank
import ClassChart.Text.Split

/-!
Resolving written type names.  A name is looked up among the member types of the
enclosing types from the inside out, among the imported types, in the package, in
the packages imported on demand and among well-known types, in this order; a name
that is found nowhere stays as written.
-/
namespace ClassChart

/-- The names of the known types, and the type in which each of them stands. -/
structure NameTable where
  known : List String
  /-- Of several entries for a type the last counts. -/
  enclosing : List (String × Option String)
deriving Repr, DecidableEq, Inhabited

/-- Where a name is written. -/
structure Place where
  package : String := ""
  imports : List String := []
  /-- The innermost type around the name. -/
  scope : Option String := none
deriving Repr, DecidableEq, Inhabited

namespace NameTable

/-- The types that are not looked up. -/
def primitives : List String :=
  ["boolean", "byte", "char", "short", "int", "long", "float", "double", "void", "var"]

/-- The well-known types that need no import. -/
def wellKnown : List String :=
  ["Object", "String", "Enum", "Record", "Class", "Number", "Integer", "Long", "Short",
    "Byte", "Double", "Float", "Boolean", "Character", "Void", "Math", "System",
    "StringBuilder", "CharSequence", "Comparable", "Iterable", "Runnable", "Cloneable",
    "AutoCloseable", "Thread", "Throwable", "Exception", "RuntimeException", "Error",
    "IllegalArgumentException", "IllegalStateException", "NullPointerException",
    "UnsupportedOperationException", "IndexOutOfBoundsException",
    "Override", "Deprecated", "FunctionalInterface", "SuppressWarnings", "SafeVarargs"]

/-- The table of the types among units. -/
def ofUnits (units : List SourceUnit) : NameTable :=
  let types := units.filter SourceUnit.isType
  { known := types.map SourceUnit.qualifiedName
    enclosing := types.map fun unit => (unit.qualifiedName, unit.parentName) }

def isKnown (table : NameTable) (name : String) : Bool :=
  table.known.contains name

def enclosingOf (table : NameTable) (name : String) : Option String :=
  (table.enclosing.reverse.lookup name).join

/-- A scope and the scopes around it, from the inside out, at most `fuel` of them.
An empty name ends the chain. -/
def scopesUpTo (table : NameTable) : Nat → Option String → List String
  | 0, _ => []
  | _, none => []
  | fuel + 1, some scope =>
      if scope.isEmpty then [] else scope :: scopesUpTo table fuel (table.enclosingOf scope)

/-- A scope and all scopes around it. -/
def scopes (table : NameTable) (scope : Option String) : List String :=
  table.scopesUpTo (table.enclosing.length + 1) scope

/-- A written type without its annotations and from its first type arguments on. -/
def erase (written : String) : String :=
  let words := (Text.words written).filter fun w => !Text.beginsWith "@" w
  Text.trim (Text.upTo '<' (String.join words))

def firstKnown (table : NameTable) (names : List String) : Option String :=
  names.find? table.isKnown

/-- Whether an import is one of all types of a package. -/
def isOnDemand (imported : String) : Bool :=
  Text.finishesWith ".*" imported

/-- The name as imported by itself: an import that ends in its first part, and the
other parts after it. -/
def importedName (imports : List String) (name : String) : Option String :=
  let head := Text.upTo '.' name
  let tail := Text.beyond '.' name
  (imports.find? fun i => !isOnDemand i && Text.afterLast '.' i = head).map fun i =>
    if tail.isEmpty then i else i ++ "." ++ tail

/-- The names that the imports of whole packages give. -/
def onDemandNames (imports : List String) (name : String) : List String :=
  (imports.filter isOnDemand).map fun i => Text.dropLast 2 i ++ "." ++ name

/-- The name in a package that may have no name. -/
def inPackage (package name : String) : String :=
  if package.isEmpty then name else package ++ "." ++ name

/-- The name among the well-known types. -/
def wellKnownName (name : String) : Option String :=
  if wellKnown.contains (Text.upTo '.' name) then some ("java.lang." ++ name) else none

/-- Look up an erased name that is not primitive. -/
def lookUp (table : NameTable) (place : Place) (name : String) : String :=
  if name.toList.contains '.' && table.isKnown name then name
  else
    ((table.firstKnown ((table.scopes place.scope).map (· ++ "." ++ name))).or <|
      (importedName place.imports name).or <|
      (table.firstKnown [inPackage place.package name]).or <|
      (table.firstKnown (onDemandNames place.imports name)).or <|
      wellKnownName name).getD name

/-- The qualified name of a written type without array dimensions. -/
def resolve (table : NameTable) (place : Place) (written : String) : String :=
  let name := erase written
  if name.isEmpty then written
  else if primitives.contains name then name
  else table.lookUp place name

/-- Whether type arguments or dimensions begin with the character. -/
def endsBase (c : Char) : Bool :=
  c == '<' || c == '['

/-- A written type with its base name resolved; type arguments and dimensions stay
as written. -/
def qualify (table : NameTable) (place : Place) (written : String) : TypeName :=
  let simple := Text.squeeze written
  let base := String.ofList (simple.toList.takeWhile (!endsBase ·))
  let rest := String.ofList (simple.toList.dropWhile (!endsBase ·))
  ⟨simple, table.resolve place base ++ rest⟩

end NameTable

end ClassChart
