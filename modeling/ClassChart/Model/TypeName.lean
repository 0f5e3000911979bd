import ClassChart.Model.Comparison

/-!
A type as a member declaration names it: the form written in the source and the
form with its base name qualified.
-/
namespace ClassChart

/-- How much of a type name a diagram shows. -/
inductive TypeDisplay where
  | qualified
  | simple
  | hidden
deriving Repr, DecidableEq, Inhabited

/-- A type name in its written and in its qualified form. -/
structure TypeName where
  simple : String
  qualified : String
deriving Repr, DecidableEq, Inhabited

namespace TypeName

/-- A name whose two forms agree. -/
def of (name : String) : TypeName :=
  ⟨name, name⟩

/-- The form that a diagram shows. -/
def shown (name : TypeName) : TypeDisplay → String
  | .qualified => name.qualified
  | .simple => name.simple
  | .hidden => ""

/-- Names are ordered by their qualified forms, then by the written ones. -/
def order (a b : TypeName) : Ordering :=
  (compare a.qualified b.qualified).then (compare a.simple b.simple)

/-- Whether a comparison holds of two names.  Names are the same if both forms agree. -/
def holds (c : Comparison) (a b : TypeName) : Bool :=
  c.result (a.order b = .lt) (a = b)

end TypeName

end ClassChart
