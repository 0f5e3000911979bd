import ClassChart.Fault

/-!
Relationships between two types, as a diagram line reads from left to right.  In
a hierarchy the supertype is on the left.
-/
namespace ClassChart

/-- One end of a relationship. -/
structure Endpoint where
  name : String
  cardinality : Option String := none
deriving Repr, DecidableEq, Inhabited

/-- A relationship between two types, with the notes on its line. -/
structure Relationship where
  left : Endpoint
  arrow : String
  right : Endpoint
  notes : List String := []
deriving Repr, DecidableEq, Inhabited

/-- The arrows of the relationships that are found in sources. -/
inductive Arrow where
  | extension
  | implementation
  | containment
  | association
  | navigable
  | aggregation
  | composition
  | dependency
deriving Repr, DecidableEq, Inhabited

def Arrow.text : Arrow → String
  | .extension => "<|--"
  | .implementation => "<|.."
  | .containment => "+--"
  | .association => "--"
  | .navigable => "<--"
  | .aggregation => "o--"
  | .composition => "*--"
  | .dependency => "<.."

namespace Relationship

/-- A given end must be there and have a name. -/
def checkEnd (side : End) : Option Endpoint → Except Fault Endpoint
  | none => .error (.endMissing side)
  | some e => if e.name.isEmpty then .error (.endUnnamed side) else .ok e

/-- A relationship between two named ends, with an arrow that is not empty. -/
def make (left : Option Endpoint) (arrow : String) (right : Option Endpoint)
    (notes : List String := []) : Except Fault Relationship := do
  let left ← checkEnd .left left
  let right ← checkEnd .right right
  if arrow.isEmpty then throw .arrowMissing
  return ⟨left, arrow, right, notes⟩

/-- Whether both ends name one type. -/
def isLoop (r : Relationship) : Bool :=
  r.left.name = r.right.name

/-- Whether two relationships agree in all but their notes. -/
def sameEdge (a b : Relationship) : Bool :=
  a.left = b.left && a.arrow = b.arrow && a.right = b.right

def addNote (r : Relationship) (note : String) : Relationship :=
  { r with notes := r.notes ++ [note] }

def describe (r : Relationship) : String :=
  s!"{r.left.name} {r.arrow} {r.right.name}" ++
    if r.notes.isEmpty then "" else ": " ++ "; ".intercalate r.notes

/-- Whether the arrow says that its left end is an interface. -/
def impliesInterface (r : Relationship) : Bool :=
  r.arrow = "<|.." || r.arrow = "..|>"

end Relationship

/-- The elements that agree with none of those kept before them. -/
def keepFirstFrom {α : Type} (same : α → α → Bool) (kept : List α) : List α → List α
  | [] => []
  | a :: rest =>
      if kept.any (same a) then keepFirstFrom same kept rest
      else a :: keepFirstFrom same (kept ++ [a]) rest

/-- Of elements that agree, keep the first. -/
def keepFirst {α : Type} (same : α → α → Bool) (as : List α) : List α :=
  keepFirstFrom same [] as

end ClassChart
