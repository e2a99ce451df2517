/-!
# Runs of characters

A class of characters is a list of runs, each with its first and its last number.

* `inRuns_append`: two lists one after the other are the class of both.
-/

namespace ContractHost.Text

/-- Whether a number lies in one of some runs. -/
def inRuns (runs : List (Nat × Nat)) (n : Nat) : Bool :=
  runs.any fun (first, last) => first ≤ n && n ≤ last

theorem inRuns_append (first second : List (Nat × Nat)) (n : Nat) :
    inRuns (first ++ second) n = (inRuns first n || inRuns second n) := by
  simp [inRuns, List.any_append]

end ContractHost.Text
