import ClassChart.Model.TypeName
import ClassChart.Text.Split

/-!
Parameter lists: their text in a diagram, and the order that keeps overloaded
methods in place.
-/
namespace ClassChart

/-- Where a parameter's name stands relative to its type. -/
inductive NamePlacement where
  | beforeType
  | afterType
  | hidden
deriving Repr, DecidableEq, Inhabited

/-- A formal parameter; either half may be unknown. -/
structure Parameter where
  name : Option String
  type : Option TypeName
deriving Repr, DecidableEq, Inhabited

/-- The type of a variadic parameter is an array type, shown with an ellipsis. -/
def ellipsis (type : String) : String :=
  if Text.finishesWith "[]" type then Text.dropLast 2 type ++ "..." else type

/-- The text of a parameter: its name and its type as far as they are shown. -/
def Parameter.render (p : Parameter) (names : NamePlacement) (types : TypeDisplay)
    (variadic : Bool) : String :=
  let name := p.name.toList
  let type :=
    match p.type with
    | some t =>
        if types = .hidden then []
        else [if variadic then ellipsis (t.shown types) else t.shown types]
    | none => []
  ": ".intercalate <|
    (if names = .beforeType then name else []) ++ type ++
      (if names = .afterType then name else [])

/-- The parameters of a method or constructor.  If the list is variadic, its last
parameter is. -/
structure Parameters where
  params : List Parameter := []
  variadic : Bool := false
deriving Repr, DecidableEq, Inhabited

namespace Parameters

def add (ps : Parameters) (name : Option String) (type : Option TypeName) : Parameters :=
  { ps with params := ps.params ++ [⟨name, type⟩] }

/-- The texts of the parameters; only the last one can be variadic. -/
def renderEach (names : NamePlacement) (types : TypeDisplay) (variadic : Bool) :
    List Parameter → List String
  | [] => []
  | [p] => [p.render names types variadic]
  | p :: rest => p.render names types false :: renderEach names types variadic rest

/-- The list in parentheses. -/
def render (ps : Parameters) (names : NamePlacement) (types : TypeDisplay) : String :=
  "(" ++ ", ".intercalate (renderEach names types ps.variadic ps.params) ++ ")"

/-- The qualified types of the parameters, an unknown one as an empty text. -/
def typeKey (ps : Parameters) : List String :=
  ps.params.map fun p => (p.type.map TypeName.qualified).getD ""

/-- Compare two lists of texts position by position. -/
def orderKeys : List String → List String → Ordering
  | [], [] => .eq
  | [], _ :: _ => .lt
  | _ :: _, [] => .gt
  | a :: as, b :: bs => (compare a b).then (orderKeys as bs)

/-- Shorter lists come first; lists of one length are ordered by their types. -/
def order (a b : Parameters) : Ordering :=
  (compare a.params.length b.params.length).then (orderKeys a.typeKey b.typeKey)

/-- Whether two lists have as many parameters and the same types.  What the parameters are called
does not count. -/
def sameTypes (a b : Parameters) : Bool :=
  a.params.length = b.params.length && a.typeKey = b.typeKey

def holds (c : Comparison) (a b : Parameters) : Bool :=
  c.result (a.order b = .lt) (a.sameTypes b)

end Parameters

end ClassChart
