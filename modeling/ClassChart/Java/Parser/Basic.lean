import ClassChart.Java.Piece
import ClassChart.Java.Tree

/-!
Parsers of declarations over grouped tokens.  A parser that fails leaves nothing
consumed, and comments are passed over wherever a token is expected.
-/
namespace ClassChart.Java

/-- A parser takes pieces from the front of a list. -/
abbrev Parser := StateT (List Piece) Option

namespace Parser

/-- The result of a parser that takes all pieces but trailing comments. -/
def complete {α : Type} (p : Parser α) (pieces : List Piece) : Option α :=
  match p.run pieces with
  | some (a, rest) => if rest.all Piece.isComment then some a else none
  | none => none

/-- What a parser yields, or nothing with nothing taken. -/
def attempt {α : Type} (p : Parser α) : Parser (Option α) := fun pieces =>
  match p.run pieces with
  | some (a, rest) => some (some a, rest)
  | none => some (none, pieces)

/-- Whether a parser succeeds; if not, nothing is taken. -/
def accepts {α : Type} (p : Parser α) : Parser Bool := do
  return (← attempt p).isSome

/-- Whether a parser would succeed.  Nothing is taken. -/
def ahead {α : Type} (p : Parser α) : Parser Bool := fun pieces =>
  some ((p.run pieces).isSome, pieces)

/-- The results of a parser that is run at most `fuel` times. -/
def manyUpTo {α : Type} (p : Parser α) : Nat → Parser (List α)
  | 0 => return []
  | fuel + 1 => do
      match ← attempt p with
      | some a => return a :: (← manyUpTo p fuel)
      | none => return []

/-- The results of a parser that is run as long as it succeeds.  Each run is to
take a piece. -/
def many {α : Type} (p : Parser α) : Parser (List α) := do
  manyUpTo p (← get).length

def commentOf (p : Piece) : Comment :=
  ⟨p.first.text, p.first.kind = .blockComment⟩

def comments : Parser (List Comment) := do
  let pieces ← get
  set (pieces.dropWhile Piece.isComment)
  return (pieces.takeWhile Piece.isComment).map commentOf

def next : Parser Piece := do
  let _ ← comments
  match ← get with
  | p :: rest =>
      set rest
      return p
  | [] => failure

def token : Parser Token := do
  match ← next with
  | .token t => return t
  | .group .. => failure

def satisfying (p : Token → Bool) : Parser Token := do
  let t ← token
  if p t then return t else failure

def symbol (text : String) : Parser Unit := do
  let _ ← satisfying fun t => t.kind = .symbol && t.text = text

def wordThat (p : String → Bool) : Parser String := do
  return (← satisfying fun t => t.kind = .word && p t.text).text

def word : Parser String :=
  wordThat fun _ => true

def keyword (text : String) : Parser Unit := do
  let _ ← wordThat (· = text)

/-- What stands in brackets that open with the given symbol. -/
def group (opening : String) : Parser (List Piece) := do
  match ← next with
  | .group t inner _ => if t.text = opening then return inner else failure
  | .token _ => failure

def parentheses : Parser (List Piece) := group "("

def braces : Parser (List Piece) := group "\x7b"

/-- One or more results with commas between. -/
def commaSeparated {α : Type} (p : Parser α) : Parser (List α) := do
  let first ← p
  let rest ← many do
    symbol ","
    p
  return first :: rest

/-- A result with the pieces that were taken for it, from its first token on. -/
def withPieces {α : Type} (p : Parser α) : Parser (α × List Piece) := do
  let _ ← comments
  let before ← get
  let a ← p
  let after ← get
  return (a, before.take (before.length - after.length))

def sourceOf (pieces : List Piece) : String :=
  Token.sourceOf (Piece.tokensOf pieces)

/-- The source of some pieces and the lines that they cover. -/
def sliceOf (pieces : List Piece) : Slice :=
  ⟨sourceOf pieces,
    (pieces.head?.map (·.first.firstLine)).getD 1,
    (pieces.getLast?.map (·.last.lastLine)).getD 1⟩

/-- The source of the pieces of a method or constructor, of which the last is its body or a
semicolon. -/
def headedSourceOf (pieces : List Piece) : HeadedSource :=
  let whole := sliceOf pieces
  { header := sourceOf pieces.dropLast
    ending := Token.spread (Piece.tokensOf pieces.getLast?.toList)
    firstLine := whole.firstLine
    lastLine := whole.lastLine }

/-- The source text that a parser takes. -/
def source {α : Type} (p : Parser α) : Parser String := do
  let (_, pieces) ← withPieces p
  return sourceOf pieces

end Parser

end ClassChart.Java
