/-!
Sets of code points written as the increasing list of the points where
membership changes: a run begins at every first point of a pair and ends before
the second.
-/
namespace ClassChart.Text

/-- Whether `n` lies in one of the runs, given whether the points passed so far
leave it inside one. -/
def inRunsFrom (inside : Bool) : List Nat → Nat → Bool
  | [], _ => inside
  | point :: rest, n => if n < point then inside else inRunsFrom (!inside) rest n

def inRuns (points : List Nat) (n : Nat) : Bool :=
  inRunsFrom false points n

example : inRuns [3, 5, 9] 3 ∧ ¬ inRuns [3, 5, 9] 5 ∧ inRuns [3, 5, 9] 12 := by decide

end ClassChart.Text
