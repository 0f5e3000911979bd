import ClassChart.Java.Token

/-!
Tokens grouped by their brackets.  Every opening bracket has the closing bracket
of its kind, and what stands between them is grouped in the same way.
-/
namespace ClassChart.Java

/-- A token, or a pair of brackets with what stands between them. -/
inductive Piece where
  | token (t : Token)
  | group (opening : Token) (inner : List Piece) (closing : Token)
deriving Repr, Inhabited

namespace Piece

def closerOf (opening : String) : Option String :=
  if opening = "(" then some ")"
  else if opening = "[" then some "]"
  else if opening = "\x7b" then some "\x7d"
  else none

def isCloser (text : String) : Bool :=
  text = ")" || text = "]" || text = "\x7d"

/-- Group tokens, given the brackets still open, innermost first, each with the
pieces before it, and the pieces since the last of them; both lists of pieces are
held in reverse. -/
def nest : List Token → List (Token × List Piece) → List Piece → Option (List Piece)
  | [], [], done => some done.reverse
  | [], _ :: _, _ => none
  | t :: rest, open_, done =>
      if t.kind ≠ .symbol then nest rest open_ (.token t :: done)
      else if (closerOf t.text).isSome then nest rest ((t, done) :: open_) []
      else if isCloser t.text then
        match open_ with
        | (opening, before) :: outer =>
            if closerOf opening.text = some t.text then
              nest rest outer (.group opening done.reverse t :: before)
            else none
        | [] => none
      else nest rest open_ (.token t :: done)

/-- Group the tokens of a text, if its brackets match. -/
def ofTokens (tokens : List Token) : Option (List Piece) :=
  nest tokens [] []

mutual

def tokens : Piece → List Token
  | .token t => [t]
  | .group opening inner closing => opening :: (tokensOf inner ++ [closing])

def tokensOf : List Piece → List Token
  | [] => []
  | p :: rest => p.tokens ++ tokensOf rest

end

mutual

/-- How deep brackets are nested in a piece. -/
def depth : Piece → Nat
  | .token _ => 0
  | .group _ inner _ => depthOf inner + 1

def depthOf : List Piece → Nat
  | [] => 0
  | p :: rest => max p.depth (depthOf rest)

end

def first : Piece → Token
  | .token t => t
  | .group opening _ _ => opening

def last : Piece → Token
  | .token t => t
  | .group _ _ closing => closing

def isComment : Piece → Bool
  | .token t => t.isComment
  | .group .. => false

end Piece

end ClassChart.Java
