import ClassChart.Model.Parameters

/-!
Types as a diagram needs them: their names, members and supertypes, all by
qualified name.  A name may lie outside the documented sources.
-/
namespace ClassChart

/-- The kinds of type declaration. -/
inductive TypeKind where
  | classType
  | interfaceType
  | enumType
  | annotationType
deriving Repr, DecidableEq, Inhabited

def TypeKind.word : TypeKind → String
  | .classType => "class"
  | .interfaceType => "interface"
  | .enumType => "enum"
  | .annotationType => "annotation"

def TypeKind.ofWord? (word : String) : Option TypeKind :=
  [.classType, .interfaceType, .enumType, .annotationType].find? (·.word = word)

/-- The kind of a documented type: one of the declared kinds, or some other word. -/
inductive Kind where
  | known (kind : TypeKind)
  | other (word : String)
deriving Repr, DecidableEq, Inhabited

def Kind.word : Kind → String
  | .known kind => kind.word
  | .other word => word

def Kind.ofWord (word : String) : Kind :=
  match TypeKind.ofWord? word with
  | some kind => .known kind
  | none => .other word

/-- Who may use a member. -/
inductive Visibility where
  | everyone
  | subclasses
  | package
  | owner
  | other (word : String)
deriving Repr, DecidableEq, Inhabited

namespace Visibility

def word : Visibility → String
  | .everyone => "public"
  | .subclasses => "protected"
  | .package => "package"
  | .owner => "private"
  | .other word => word

def ofWord (word : String) : Visibility :=
  if word = "public" then .everyone
  else if word = "protected" then .subclasses
  else if word = "package" then .package
  else if word = "private" then .owner
  else .other word

/-- The mark before a member's name. -/
def symbol : Visibility → String
  | .everyone => "+"
  | .subclasses => "#"
  | .package => "~"
  | .owner => "-"
  | .other _ => "~"

/-- The visibility that modifiers give; of several the widest counts. -/
def ofModifiers (modifiers : List String) (default : Visibility) : Visibility :=
  if modifiers.contains "public" then .everyone
  else if modifiers.contains "protected" then .subclasses
  else if modifiers.contains "private" then .owner
  else default

end Visibility

/-- A method or constructor that a type declares. -/
structure Method where
  name : String
  parameters : Parameters := {}
  /-- Nothing for constructors. -/
  returnType : Option TypeName := none
  modifiers : List String := []
  isConstructor : Bool := false
  /-- Abstract by its place, as interface methods without a body are. -/
  impliedAbstract : Bool := false
  visibility : Visibility := .everyone
deriving Repr, DecidableEq, Inhabited

/-- Whether the method has no implementation. -/
def Method.isAbstract (m : Method) : Bool :=
  m.impliedAbstract || m.modifiers.contains "abstract"

def Method.isStatic (m : Method) : Bool :=
  m.modifiers.contains "static"

/-- A field that a type declares. -/
structure Field where
  name : String
  type : TypeName
  modifiers : List String := []
  visibility : Visibility := .package
deriving Repr, DecidableEq, Inhabited

def Field.isStatic (f : Field) : Bool :=
  f.modifiers.contains "static"

/-- A documented type. -/
structure NamedType where
  qualifiedName : String
  name : String
  package : String := ""
  kind : Kind := .known .classType
  modifiers : List String := []
  typeParameters : List String := []
  superclass : Option String := none
  /-- An interface that could not be named is `none`. -/
  interfaces : List (Option String) := []
  enclosingType : Option String := none
  methods : List Method := []
  fields : List Field := []
  /-- Block tags of the documentation comment, with their texts. -/
  tags : List (String × String) := []
  filePath : Option String := none
deriving Repr, DecidableEq, Inhabited

namespace NamedType

def isAbstract (t : NamedType) : Bool :=
  t.kind = .known .classType && t.modifiers.contains "abstract"

/-- Whether the type is an interface or an annotation type. -/
def isInterface (t : NamedType) : Bool :=
  t.kind = .known .interfaceType || t.kind = .known .annotationType

/-- The texts of the tags of one name, in order. -/
def tagsNamed (t : NamedType) (tag : String) : List String :=
  t.tags.filterMap fun (name, text) => if name = tag then some text else none

/-- The word that introduces the type in a diagram. -/
def keyword (t : NamedType) : String :=
  match t.kind with
  | .known .interfaceType => "interface"
  | .known .enumType => "enum"
  | .known .annotationType => "annotation"
  | _ => if t.isAbstract then "abstract class" else "class"

/-- The type parameters in angle brackets, or nothing. -/
def generics (t : NamedType) : String :=
  if t.typeParameters.isEmpty then ""
  else "<" ++ ", ".intercalate t.typeParameters ++ ">"

end NamedType

end ClassChart
