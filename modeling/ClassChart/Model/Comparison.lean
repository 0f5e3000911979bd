/-!
The comparisons of an ordered type.  The type says of two values whether the first is less and
whether they are the same; the other comparisons follow from these two answers.
-/
namespace ClassChart

/-- A comparison of two values. -/
inductive Comparison where
  | eq
  | lt
  | le
  | gt
  | ge
deriving Repr, DecidableEq, Inhabited

/-- Whether a comparison holds, given whether the first value is less and whether the values are
the same. -/
def Comparison.result (less same : Bool) : Comparison → Bool
  | .eq => same
  | .lt => less
  | .le => less || same
  | .gt => !less && !same
  | .ge => !less

end ClassChart
