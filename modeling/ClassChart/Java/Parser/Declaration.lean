import ClassChart.Java.Parser.Expression

/-!
Declarations of types and of their members.
-/
namespace ClassChart.Java.Parser

/-- What follows the type of a parameter that is not variadic: its name, or the
`this` of a receiver. -/
def singleFormal (type : String) : Parser Formal := do
  let receiver ← accepts do
    let _ ← many do
      let _ ← word
      symbol "."
    keyword "this"
  if receiver then return .receiver
  else
    let name ← word
    let dims ← source dimensions
    return .single type ⟨name, dims⟩

/-- A parameter.  Comments after the modifiers of a variadic one are kept. -/
def formal : Parser Formal := do
  let _ ← modifiers
  let lead ← comments
  let type ← source plainType
  if ← accepts (symbol "...") then
    annotations
    let variable_ ← declarator
    return .variadic lead type variable_.name
  else singleFormal type

/-- The parameters between parentheses, with the comments among them. -/
def formals : Parser (List Formal) := do
  let lead ← comments
  if (← get).isEmpty then return lead.map .comment
  else
    let first ← formal
    let rest ← many do
      let before ← comments
      symbol ","
      let after ← comments
      let f ← formal
      return (before ++ after).map Formal.comment ++ [f]
    let trail ← comments
    return lead.map .comment ++ first :: (rest.flatten ++ trail.map .comment)

def formalParameters : Parser (List Formal) := do
  let inner ← parentheses
  match complete formals inner with
  | some fs => return fs
  | none => failure

def optionalThrows : Parser Unit := do
  if ← accepts (keyword "throws") then
    let _ ← commaSeparated annotatedType

/-- The words that cannot name a constructor. -/
def isConstructorName (w : String) : Bool :=
  !primitives.contains w && !declarationWords.contains w &&
    (w = "sealed" || !modifierWords.contains w)

def constructor : Parser Member := do
  let ((modifiers, name, formals), pieces) ← withPieces do
    let modifiers ← modifiers
    let _ ← attempt typeParameters
    let name ← wordThat isConstructorName
    let formals ← formalParameters
    optionalThrows
    let _ ← braces
    return (modifiers, name, formals)
  return .constructor
    { modifiers, name, formals, source := headedSourceOf pieces }

def compactConstructor : Parser Member := do
  let _ ← modifiers
  let _ ← wordThat isConstructorName
  let _ ← braces
  return .other

def bodyOrSemicolon : Parser Bool := do
  if ← accepts braces then return true
  else
    symbol ";"
    return false

def method : Parser MethodDecl := do
  let (m, pieces) ← withPieces do
    let modifiers ← modifiers
    let typeParameters ← optionalTypeParameters
    annotations
    let returnType ← source plainType
    let name ← word
    let formals ← formalParameters
    dimensions
    optionalThrows
    let hasBody ← bodyOrSemicolon
    return ({ modifiers, typeParameters, returnType, name, formals, hasBody
              source := default } : MethodDecl)
  return { m with source := headedSourceOf pieces }

def fields (isConstant : Bool) : Parser Member := do
  let ((modifiers, type, declarators), pieces) ← withPieces do
    let modifiers ← modifiers
    let type ← source plainType
    let declarators ← commaSeparated declarator
    symbol ";"
    return (modifiers, type, declarators)
  return .field { modifiers, type, declarators, isConstant, slice := sliceOf pieces }

def annotationElement : Parser Member := do
  let _ ← modifiers
  plainType
  let _ ← word
  let inner ← parentheses
  if !inner.all Piece.isComment then failure
  dimensions
  if ← accepts (keyword "default") then
    if !(← accepts annotationUse) then initialiser
  symbol ";"
  return .other

def initialiserBlock : Parser Member := do
  let _ ← attempt (keyword "static")
  let _ ← braces
  return .other

/-- Supertypes with commas between, and the comments between the first and the
last of them. -/
def supertypes : Parser (List Supertype) := do
  let first ← source annotatedType
  let rest ← many do
    let before ← comments
    symbol ","
    let after ← comments
    let type ← source annotatedType
    return (before ++ after).map Supertype.comment ++ [.type type]
  return .type first :: rest.flatten

/-- Supertypes after a keyword, if it stands here. -/
def interfaceClause (word : String) : Parser InterfaceClause := do
  if ← accepts (keyword word) then
    let lead ← comments
    return ⟨lead, ← supertypes⟩
  else return {}

/-- The superclass after `extends`, if there is one, with the comments before it. -/
def superclassClause : Parser (List Supertype) := do
  if ← accepts (keyword "extends") then
    let lead ← comments
    let type ← source annotatedType
    return lead.map .comment ++ [.type type]
  else return []

def optionalPermits : Parser Unit := do
  if ← accepts (keyword "permits") then
    let _ ← commaSeparated annotatedType

/-- A class up to its body, and what stands in the body. -/
def classHead (modifiers : List Modifier) : Parser (TypeHeader × List Piece) := do
  keyword "class"
  let name ← word
  let typeParameters ← optionalTypeParameters
  let superclass ← superclassClause
  let implemented ← interfaceClause "implements"
  optionalPermits
  let body ← braces
  return ({ form := .classForm, modifiers, name, typeParameters, superclass, implemented
            slice := default }, body)

def recordHead (modifiers : List Modifier) : Parser (TypeHeader × List Piece) := do
  keyword "record"
  let name ← word
  let typeParameters ← optionalTypeParameters
  let components ← formalParameters
  let implemented ← interfaceClause "implements"
  let body ← braces
  return ({ form := .recordForm, modifiers, name, typeParameters, components, implemented
            slice := default }, body)

def interfaceHead (modifiers : List Modifier) : Parser (TypeHeader × List Piece) := do
  keyword "interface"
  let name ← word
  let typeParameters ← optionalTypeParameters
  let extended ← interfaceClause "extends"
  optionalPermits
  let body ← braces
  return ({ form := .interfaceForm, modifiers, name, typeParameters, extended
            slice := default }, body)

def enumHead (modifiers : List Modifier) : Parser (TypeHeader × List Piece) := do
  keyword "enum"
  let name ← word
  let implemented ← interfaceClause "implements"
  let body ← braces
  return ({ form := .enumForm, modifiers, name, implemented, slice := default }, body)

def annotationHead (modifiers : List Modifier) : Parser (TypeHeader × List Piece) := do
  symbol "@interface"
  let name ← word
  let body ← braces
  return ({ form := .annotationForm, modifiers, name, slice := default }, body)

/-- A type declaration, its members still to be read from its body. -/
def typeDeclaration : Parser (TypeHeader × List Piece) := do
  let ((header, body), pieces) ← withPieces do
    let ms ← modifiers
    classHead ms <|> interfaceHead ms <|> enumHead ms <|> annotationHead ms <|> recordHead ms
  return ({ header with slice := sliceOf pieces }, body)

/-- An enum constant with its arguments and its body. -/
def enumConstant : Parser Unit := do
  let _ ← modifiers
  let _ ← word
  let _ ← attempt parentheses
  let _ ← attempt braces

/-- The constants of an enum; what is left are its members. -/
def enumConstants : Parser (List Piece) := do
  let _ ← attempt (commaSeparated enumConstant)
  let _ ← attempt (symbol ",")
  let more ← accepts (symbol ";")
  let rest ← get
  set ([] : List Piece)
  if more then return rest
  else if rest.all Piece.isComment then return []
  else failure

/-- A member other than a type, in the body of a type of the given form. -/
def memberIn : TypeForm → Parser Member
  | .interfaceForm => (return .method (← method)) <|> fields true
  | .annotationForm => annotationElement <|> fields true
  | _ =>
      initialiserBlock <|> constructor <|> compactConstructor <|>
        (return .method (← method)) <|> fields false

/-- The pieces of a body in which members stand. -/
def memberPieces (form : TypeForm) (body : List Piece) : Option (List Piece) :=
  match form with
  | .enumForm => complete enumConstants body
  | _ => some body

/-- What stands at the front of a body: a comment, a semicolon, a type whose body
is read by `nested`, or another member. -/
def memberStep (nested : TypeForm → List Piece → Option (List Member)) (form : TypeForm) :
    Parser (List Member) := do
  match ← get with
  | [] => failure
  | p :: rest =>
      if p.isComment then
        set rest
        return [.comment (commentOf p)]
      else if ← accepts (symbol ";") then return []
      else
        match ← attempt typeDeclaration with
        | some (header, body) =>
            match nested header.form body with
            | some members => return [.type header members]
            | none => failure
        | none => return [← memberIn form]

/-- The members in the body of a type of the given form, whose brackets are nested
at most `fuel` deep. -/
def members : Nat → TypeForm → List Piece → Option (List Member)
  | 0, _, _ => none
  | fuel + 1, form, body => do
      let pieces ← memberPieces form body
      let steps ← complete (many (memberStep (members fuel) form)) pieces
      return steps.flatten

end ClassChart.Java.Parser
