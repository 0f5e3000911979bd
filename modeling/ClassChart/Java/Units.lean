import ClassChart.Java.Javadoc
import ClassChart.Java.Tree
import ClassChart.Source.Unit

/-!
The units of a source file.  The unit of a type is followed by those of its own
members, record components first, and then by the units of its nested types.
-/
namespace ClassChart.Java

namespace Modifier

def keywords (ms : List Modifier) : List String :=
  ms.filterMap fun
    | .keyword word => some (Text.trim word)
    | _ => none

def annotations (ms : List Modifier) : List String :=
  ms.filterMap fun
    | .annotated text => some (Text.trim text)
    | _ => none

end Modifier

def Supertype.text : Supertype → String
  | .type text => Text.trim text
  | .comment c => Text.trim c.text

/-- The parameter that a formal declares.  Receivers and comments declare none; a
comment before the type of a variadic parameter takes its place. -/
def Formal.parameter? : Formal → Option SourceParameter
  | .single type d => some ⟨d.name, Text.trim type ++ Text.trim d.dimensions, false⟩
  | .variadic lead type name =>
      let type := (lead.head?.map Comment.text).getD type
      some ⟨name, Text.trim type ++ "[]", true⟩
  | .receiver => none
  | .comment _ => none

/-- The kind of type that a form of declaration declares. -/
def TypeForm.kind : TypeForm → TypeKind
  | .classForm => .classType
  | .recordForm => .classType
  | .interfaceForm => .interfaceType
  | .enumForm => .enumType
  | .annotationForm => .annotationType

/-- The header of a type: its source up to the first opening brace. -/
def typeSignature (source : String) : String :=
  Text.trim (Text.upTo '\x7b' source)

/-- Whether a character ends the header of a member. -/
def endsHeader (c : Char) : Bool :=
  c == '\x7b' || c == ';' || c == '='

/-- The header of a member: the words of its source up to the first opening brace,
semicolon or equals sign, or of its first line if it has none. -/
def memberSignature (source : String) : String :=
  let cs := source.toList
  if cs.any endsHeader then Text.squeeze (String.ofList (cs.takeWhile (!endsHeader ·)))
  else Text.squeeze (Text.upTo '\n' source)

def Member.comment? : Member → Option Comment
  | .comment c => some c
  | _ => none

def Item.comment? : Item → Option Comment
  | .comment c => some c
  | _ => none

/-- The documentation in the comment directly before a declaration. -/
def documentation (before : Option Comment) : Javadoc.Parts :=
  match before with
  | some c => Javadoc.parts (if c.isBlock then Javadoc.content c.text else none)
  | none => Javadoc.parts none

/-- Where units are read from. -/
structure Origin where
  filePath : String
  package : String
deriving Repr, DecidableEq, Inhabited

/-- A name inside of another, or inside of a package that may have no name. -/
def qualify (outer : Option String) (package name : String) : String :=
  match outer with
  | some outer => outer ++ "." ++ name
  | none => if package.isEmpty then name else package ++ "." ++ name

def typeUnit (o : Origin) (outer : Option String) (before : Option Comment) (h : TypeHeader) :
    SourceUnit :=
  let doc := documentation before
  { kind := .type h.form.kind
    name := h.name
    qualifiedName := qualify outer o.package h.name
    package := o.package
    filePath := o.filePath
    firstLine := h.slice.firstLine
    lastLine := h.slice.lastLine
    signature := some (typeSignature h.slice.text)
    description := doc.description
    parentName := outer
    modifiers := Modifier.keywords h.modifiers
    annotations := Modifier.annotations h.modifiers
    typeParameters := h.typeParameters.map Text.trim
    extended := (h.superclass.take 1 ++ h.extended.entries).map Supertype.text
    implemented := h.implemented.entries.map Supertype.text
    tags := doc.tags
    isRecord := h.form = .recordForm }

/-- The unit of a member, as far as all members have it in common. -/
def memberUnit (o : Origin) (owner : String) (kind : UnitKind) (name : String) (s : Slice) :
    SourceUnit :=
  { kind
    name
    qualifiedName := owner ++ "." ++ name
    package := o.package
    filePath := o.filePath
    firstLine := s.firstLine
    lastLine := s.lastLine
    signature := some (memberSignature s.text)
    parentName := some owner }

def methodUnit (o : Origin) (owner : String) (before : Option Comment) (m : MethodDecl) :
    SourceUnit :=
  { memberUnit o owner .method m.name m.source.slice with
    modifiers := Modifier.keywords m.modifiers
    annotations := Modifier.annotations m.modifiers
    typeParameters := m.typeParameters.map Text.trim
    returnType := some (Text.trim m.returnType)
    parameters := m.formals.filterMap Formal.parameter?
    hasBody := m.hasBody
    description := (documentation before).description }

/-- The unit of a constructor, which has the name of its type. -/
def constructorUnit (o : Origin) (owner name : String) (c : ConstructorDecl) : SourceUnit :=
  { memberUnit o owner .constructor name c.source.slice with
    modifiers := Modifier.keywords c.modifiers
    annotations := Modifier.annotations c.modifiers
    parameters := c.formals.filterMap Formal.parameter? }

/-- The modifiers of declared fields.  Constants are public, static and final. -/
def fieldModifiers (f : FieldDecl) : List String :=
  let written := Modifier.keywords f.modifiers
  if f.isConstant then (["public", "static", "final"] ++ written).eraseDups else written

/-- The units of declared fields, one for each variable. -/
def fieldUnits (o : Origin) (owner : String) (f : FieldDecl) : List SourceUnit :=
  f.declarators.map fun d =>
    { memberUnit o owner .field d.name f.slice with
      modifiers := fieldModifiers f
      returnType := some (Text.trim f.type ++ Text.trim d.dimensions) }

/-- The units of record components, which are private final fields. -/
def componentUnits (o : Origin) (owner : String) (h : TypeHeader) : List SourceUnit :=
  (h.components.filterMap Formal.parameter?).map fun p =>
    { memberUnit o owner .field p.name h.slice with
      modifiers := ["private", "final"]
      returnType := some p.type }

/-- The units of one member that is no type. -/
def ownUnits (o : Origin) (owner : SourceUnit) (before : Option Comment) :
    Member → List SourceUnit
  | .method m => [methodUnit o owner.qualifiedName before m]
  | .constructor c => [constructorUnit o owner.qualifiedName owner.name c]
  | .field f => fieldUnits o owner.qualifiedName f
  | _ => []

/-- The units of the members that are no types, in the order of the source. -/
def allOwnUnits (o : Origin) (owner : SourceUnit) (before : Option Comment) :
    List Member → List SourceUnit
  | [] => []
  | m :: rest => ownUnits o owner before m ++ allOwnUnits o owner m.comment? rest

mutual

/-- The units of a type with its members and nested types; nothing for other
members. -/
def typeUnits (o : Origin) (outer : Option String) (before : Option Comment) :
    Member → List SourceUnit
  | .type header members =>
      let unit := typeUnit o outer before header
      unit :: (componentUnits o unit.qualifiedName header ++ allOwnUnits o unit none members ++
        nestedUnits o unit.qualifiedName none members)
  | _ => []

/-- The units of the types among members, in the order of the source. -/
def nestedUnits (o : Origin) (outer : String) (before : Option Comment) :
    List Member → List SourceUnit
  | [] => []
  | m :: rest => typeUnits o (some outer) before m ++ nestedUnits o outer m.comment? rest

end

def itemUnits (o : Origin) (before : Option Comment) : List Item → List SourceUnit
  | [] => []
  | item :: rest =>
      (match item with
        | .type header members => typeUnits o none before (.type header members)
        | _ => []) ++ itemUnits o item.comment? rest

namespace CompilationUnit

/-- The name of the package; the first declaration of one counts. -/
def package (unit : CompilationUnit) : String :=
  let found := unit.items.findSome? fun
    | .package text => some text
    | _ => none
  match found with
  | some text =>
      Text.trim (Text.trimEndWhile (· == ';') (Text.eraseFirst "package" (Text.trim text)))
  | none => ""

/-- What an import declaration imports.  Static members are no types and are
left out. -/
def imported? (text : String) : Option String :=
  match Text.words (Text.trim (Text.trimEndWhile (· == ';') (Text.trim text))) with
  | _ :: second :: rest =>
      if second = "static" then none else some (String.join (second :: rest))
  | _ => none

def imports (unit : CompilationUnit) : List String :=
  unit.items.filterMap fun
    | .importation text => imported? text
    | _ => none

def units (unit : CompilationUnit) (filePath : String) : List SourceUnit :=
  let imports := unit.imports
  (itemUnits ⟨filePath, unit.package⟩ none unit.items).map ({ · with imports })

end CompilationUnit

end ClassChart.Java
