import ClassChart.Java.Parser.Basic

/-!
Annotations, the uses of types, type parameters and modifiers.
-/
namespace ClassChart.Java.Parser

def primitives : List String :=
  ["boolean", "byte", "char", "short", "int", "long", "float", "double", "void"]

def declarationWords : List String :=
  ["class", "interface", "enum"]

def qualifiedName : Parser Unit := do
  let _ ← word
  let _ ← many do
    symbol "."
    word

def annotationUse : Parser Unit := do
  symbol "@"
  qualifiedName
  let _ ← attempt parentheses

def annotations : Parser Unit := do
  let _ ← many annotationUse

/-- One empty pair of square brackets with the annotations before it. -/
def dimension : Parser Unit := do
  annotations
  let inner ← group "["
  if inner.all Piece.isComment then return () else failure

def dimensions : Parser Unit := do
  let _ ← many dimension

/-- A type argument, given how types are read. -/
def typeArgument (type : Parser Unit) : Parser Unit := do
  annotations
  if ← accepts (symbol "?") then
    let _ ← attempt do
      let _ ← wordThat fun w => w = "extends" || w = "super"
      annotations
      type
  else type

/-- Type arguments in angle brackets, given how types are read. -/
def typeArguments (type : Parser Unit) : Parser Unit := do
  symbol "<"
  let _ ← attempt (commaSeparated (typeArgument type))
  symbol ">"

/-- A class name with its type arguments and the names of inner classes, given
how types are read. -/
def classType (type : Parser Unit) : Parser Unit := do
  let _ ← wordThat fun w => !primitives.contains w && !declarationWords.contains w
  let _ ← attempt (typeArguments type)
  let _ ← many do
    symbol "."
    annotations
    let _ ← word
    attempt (typeArguments type)

/-- A type without annotations of its own, nested at most `fuel` deep. -/
def typeUpTo : Nat → Parser Unit
  | 0 => failure
  | fuel + 1 => do
      if !(← accepts (wordThat primitives.contains)) then classType (typeUpTo fuel)
      dimensions

/-- A type without annotations of its own. -/
def plainType : Parser Unit := do
  typeUpTo ((← get).length + 1)

def annotatedType : Parser Unit := do
  annotations
  plainType

def typeParameter : Parser Unit := do
  annotations
  let _ ← word
  let _ ← attempt do
    keyword "extends"
    annotatedType
    many do
      symbol "&"
      annotatedType

/-- The source texts of type parameters in angle brackets. -/
def typeParameters : Parser (List String) := do
  symbol "<"
  let texts ← commaSeparated (source typeParameter)
  symbol ">"
  return texts

def optionalTypeParameters : Parser (List String) := do
  return (← attempt typeParameters).getD []

def modifierWords : List String :=
  ["public", "protected", "private", "abstract", "static", "final", "strictfp", "default",
    "synchronized", "native", "transient", "volatile", "sealed", "non-sealed"]

/-- A modifier with the comments before it.  The word `sealed` is one only before
another word or an annotation. -/
def modifier : Parser (List Modifier) := do
  let before ← comments
  let found ←
    (do
      let text ← source annotationUse
      return Modifier.annotated text) <|>
    (do
      let w ← wordThat modifierWords.contains
      if w = "sealed" then
        if ← ahead (satisfying fun t => t.kind = .word || t.text = "@") then
          return Modifier.keyword w
        else failure
      else return Modifier.keyword w)
  return before.map .comment ++ [found]

/-- Modifiers, possibly none.  Comments after the last of them are not taken. -/
def modifiers : Parser (List Modifier) := do
  let _ ← comments
  return (← many modifier).flatten

end ClassChart.Java.Parser
