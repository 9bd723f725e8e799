/-
  ClusterRounds.Aggregate.Local

  The local reduction of one partition. One pass adds every point to the row of its
  cluster in a table of sums, a second one counts the labels; the clusters that
  occur make the partial, in ascending order.
-/

import ClusterRounds.Aggregate.Basic
import ClusterRounds.Assignment

namespace ClusterRounds.Aggregate

variable {α : Type}

/-- Adds every row to the row of the table that its label names, in order. -/
def scatter [Add α] (table : List (List α)) (entries : List (Nat × List α)) : List (List α) :=
  entries.foldl (fun t e => t.modify e.1 fun row => List.zipWith (· + ·) row e.2) table

/-- How often each of `k` labels occurs. -/
def tally (k : Nat) (labels : List Nat) : List Nat :=
  (List.range k).map labels.count

def inRange (k : Int) (labels : List Int) : Bool := labels.all fun l => 0 ≤ l && l < k

/-- The rows to add, one for each label; a single row serves all labels. -/
def rowsFor (labels : Nat) (points : Tensor α) : Except OperandFault (List (List α)) :=
  if points.rank ≠ 2 then .error .shapesDiffer
  else if points.rowTotal = labels then .ok points.rowLists
  else if points.rowTotal = 1 then .ok (List.replicate labels (points.rowLists.headD []))
  else .error .shapesDiffer

/-- The partial of a table of sums and a table of counts: the clusters with points. -/
def occupied (sums : List (List α)) (counts : List Nat) : Partial α :=
  ((sums.zip counts).zipIdx.filter fun e => 0 < e.1.2).map fun e =>
    let cluster : Int := e.2
    (cluster, ⟨cluster, Tensor.vector e.1.1, e.1.2⟩)

/-- The accumulators of the clusters that occur in an assignment to `k` clusters. -/
def accumulate [Zero α] [Add α] (a : Assignment α) (k : Int) : Outcome (Partial α) := do
  -- the points of an empty assignment may have no width
  if a.labels.isEmpty then return []
  if !inRange k a.labels then throw (.protocol (.labelOutOfRange k a.epoch))
  let width ← .ofOperands a.points.width
  let rows ← .ofOperands (rowsFor a.labels.length a.points)
  let labels := a.labels.map Int.toNat
  -- every sum starts from zero and takes the points in their order
  let zeros := List.replicate k.toNat (List.replicate width (0 : α))
  return occupied (scatter zeros (labels.zip rows)) (tally k.toNat labels)

end ClusterRounds.Aggregate
