/-!
The declarations of a source file.  Statements and expressions are left out.
Comments are part of a tree wherever they can be told apart from the text around
them, and every declaration keeps its source text.
-/
namespace ClassChart.Java

/-- A comment with its marks. -/
structure Comment where
  text : String
  isBlock : Bool
deriving Repr, DecidableEq, Inhabited

/-- The source of a declaration and the lines that it covers. -/
structure Slice where
  text : String
  firstLine : Nat
  lastLine : Nat
deriving Repr, DecidableEq, Inhabited

/-- The source of a method or constructor, its header apart from what ends it. -/
structure HeadedSource where
  header : String
  /-- The body, or the semicolon in its place, with the blanks before it. -/
  ending : String
  firstLine : Nat
  lastLine : Nat
deriving Repr, DecidableEq, Inhabited

def HeadedSource.slice (s : HeadedSource) : Slice :=
  ⟨s.header ++ s.ending, s.firstLine, s.lastLine⟩

/-- What stands before the keyword or type of a declaration. -/
inductive Modifier where
  | keyword (word : String)
  | annotated (text : String)
  | comment (c : Comment)
deriving Repr, DecidableEq, Inhabited

/-- An entry of a list of supertypes. -/
inductive Supertype where
  | type (text : String)
  | comment (c : Comment)
deriving Repr, DecidableEq, Inhabited

/-- The supertypes after a keyword, with the comments between the keyword and
the first of them. -/
structure InterfaceClause where
  lead : List Comment := []
  entries : List Supertype := []
deriving Repr, DecidableEq, Inhabited

/-- A declared variable with the dimensions after its name. -/
structure Declarator where
  name : String
  dimensions : String := ""
deriving Repr, DecidableEq, Inhabited

/-- What stands between the parentheses of a parameter list. -/
inductive Formal where
  | single (type : String) (variable_ : Declarator)
  /-- A variadic parameter, with the comments between its modifiers and its type. -/
  | variadic (lead : List Comment) (type : String) (name : String)
  | receiver
  | comment (c : Comment)
deriving Repr, DecidableEq, Inhabited

/-- A method. -/
structure MethodDecl where
  modifiers : List Modifier
  typeParameters : List String
  returnType : String
  name : String
  formals : List Formal
  hasBody : Bool
  source : HeadedSource
deriving Repr, DecidableEq, Inhabited

/-- A constructor. -/
structure ConstructorDecl where
  modifiers : List Modifier
  name : String
  formals : List Formal
  source : HeadedSource
deriving Repr, DecidableEq, Inhabited

/-- A declaration of fields.  Fields of interfaces and annotation types are
constants. -/
structure FieldDecl where
  modifiers : List Modifier
  type : String
  declarators : List Declarator
  isConstant : Bool
  slice : Slice
deriving Repr, DecidableEq, Inhabited

/-- The forms of type declaration. -/
inductive TypeForm where
  | classForm
  | recordForm
  | interfaceForm
  | enumForm
  | annotationForm
deriving Repr, DecidableEq, Inhabited

/-- A type declaration without its members. -/
structure TypeHeader where
  form : TypeForm
  modifiers : List Modifier
  name : String
  typeParameters : List String := []
  /-- What follows `extends` in a class: comments, then the type. -/
  superclass : List Supertype := []
  /-- The types that an interface extends. -/
  extended : InterfaceClause := {}
  /-- The types after `implements`. -/
  implemented : InterfaceClause := {}
  /-- The components of a record. -/
  components : List Formal := []
  slice : Slice
deriving Repr, DecidableEq, Inhabited

/-- What stands in the body of a type, semicolons apart.  Of an enum it is what
follows the constants. -/
inductive Member where
  | method (m : MethodDecl)
  | constructor (c : ConstructorDecl)
  | field (f : FieldDecl)
  | type (header : TypeHeader) (members : List Member)
  | comment (c : Comment)
  /-- An initialiser, a compact constructor or an annotation element. -/
  | other
deriving Repr, Inhabited

/-- What stands at the top of a source file, semicolons apart. -/
inductive Item where
  | package (text : String)
  | importation (text : String)
  | type (header : TypeHeader) (members : List Member)
  | comment (c : Comment)
  /-- A method, a statement or a module. -/
  | other
deriving Repr, Inhabited

/-- A source file. -/
structure CompilationUnit where
  items : List Item
deriving Repr, Inhabited

end ClassChart.Java
