import ClassChart.Java.Parser.Declaration

/-!
Source files: packages, imports and types, and the methods, statements and
modules that may stand between them.
-/
namespace ClassChart.Java

namespace Parser

/-- The words with which a declaration or statement of its own kind begins, so
that no expression or variable does. -/
def leadingWords : List String :=
  ["package", "import", "class", "interface", "enum", "if", "else", "while", "for", "do", "try",
    "catch", "finally", "switch", "case", "synchronized", "return", "throw", "break", "continue",
    "assert", "public", "protected", "private", "abstract", "static", "native", "default"]

def localVariables : Parser Unit := do
  let _ ← modifiers
  plainType
  let _ ← commaSeparated declarator
  symbol ";"

def expressionStatement : Parser Unit := do
  expression
  symbol ";"

/-- A statement that consists of a keyword and possibly an expression. -/
def jump : Parser Unit := do
  let _ ← wordThat ["return", "throw", "break", "continue", "yield", "assert"].contains
  let _ ← attempt expression
  symbol ";"

def catchClause : Parser Unit := do
  keyword "catch"
  let _ ← parentheses
  let _ ← braces

def tryStatement : Parser Unit := do
  keyword "try"
  let _ ← attempt parentheses
  let _ ← braces
  let _ ← many catchClause
  if ← accepts (keyword "finally") then
    let _ ← braces

/-- A statement that may stand outside of types. -/
def statement : Nat → Parser Unit
  | 0 => failure
  | fuel + 1 =>
      let inner := statement fuel
      let headed (w : String) : Parser Unit := do
        keyword w
        let _ ← parentheses
      (do let _ ← braces) <|> symbol ";" <|>
      (do
        headed "if"
        inner
        if ← accepts (keyword "else") then inner) <|>
      (do
        headed "while" <|> headed "for"
        inner) <|>
      (do
        keyword "do"
        inner
        headed "while"
        symbol ";") <|>
      (do
        headed "switch" <|> headed "synchronized"
        let _ ← braces) <|>
      tryStatement <|> jump <|>
      (do
        let _ ← wordThat fun w => !leadingWords.contains w
        symbol ":"
        inner) <|>
      (do
        if ← ahead (wordThat leadingWords.contains) then failure
        localVariables <|> expressionStatement)

def module_ : Parser Unit := do
  annotations
  let _ ← attempt (keyword "open")
  keyword "module"
  qualifiedName
  let _ ← braces

def packageDeclaration : Parser Unit := do
  annotations
  keyword "package"
  qualifiedName
  symbol ";"

/-- The import of a type, of all types of a package, or of static members. -/
def importDeclaration : Parser Unit := do
  keyword "import"
  let _ ← attempt (keyword "static")
  qualifiedName
  let _ ← attempt do
    symbol "."
    symbol "*"
  symbol ";"

/-- What stands outside of types besides packages and imports. -/
def otherItem : Parser Item := do
  module_ <|> (do let _ ← method) <|> (do statement ((← get).length + 1))
  return .other

/-- What stands at the front of a file: a comment, a semicolon, or an item. -/
def itemStep : Parser (List Item) := do
  match ← get with
  | [] => failure
  | p :: rest =>
      if p.isComment then
        set rest
        return [.comment (commentOf p)]
      else if ← accepts (symbol ";") then return []
      else
        match ← attempt typeDeclaration with
        | some (header, body) =>
            match members (Piece.depthOf body + 1) header.form body with
            | some members => return [.type header members]
            | none => failure
        | none =>
            let item ←
              (do return Item.package (← source packageDeclaration)) <|>
              (do return Item.importation (← source importDeclaration)) <|>
              otherItem
            return [item]

end Parser

/-- The declarations of a source text, if it is well formed. -/
def CompilationUnit.ofSource? (source : String) : Option CompilationUnit := do
  let tokens ← Lexer.tokens source
  let pieces ← Piece.ofTokens tokens
  let steps ← Parser.complete (Parser.many Parser.itemStep) pieces
  return ⟨steps.flatten⟩

end ClassChart.Java
