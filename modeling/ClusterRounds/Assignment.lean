/-
  ClusterRounds.Assignment

  What one partition knows at the end of a round: a cluster for each of its points.
-/

import ClusterRounds.Tensor.Basic

namespace ClusterRounds

/-- The labels of one round, `labels[i]` being the cluster of the i-th point. -/
structure Assignment (α : Type) where
  epoch : Int
  labels : List Int
  points : Tensor α

namespace Assignment

variable {α : Type}

/-- Every label with its point. An array without axes has no points to go through. -/
def pairs (a : Assignment α) : Except OperandFault (List (Int × Tensor α)) :=
  if a.points.shape = [] then .error .wrongKind else .ok (a.labels.zip a.points.rows)

def size (a : Assignment α) : Nat := a.labels.length

end Assignment

end ClusterRounds
