/-
  ClusterRounds.Collector

  The centroids of the next round out of the means of this one. A centroid stands at
  the place of its cluster; a cluster without a mean keeps its previous centroid, and
  the collector remembers which ones did.
-/

import ClusterRounds.Failure.Basic
import ClusterRounds.Tensor.Basic

namespace ClusterRounds

structure Collector where
  k : Int
  /-- The clusters that got no mean in the last collection, ascending. -/
  emptyClusters : List Int

namespace Collector

variable {α : Type}

def ofSize (k : Int) : Collector := ⟨k, []⟩

/-- Drops ones in front until at most `rank` axes are left. -/
def dropOnes (rank : Nat) : Shape → Shape
  | [] => []
  | n :: s => if n = 1 ∧ rank < s.length + 1 then dropOnes rank s else n :: s

theorem size_dropOnes (rank : Nat) : ∀ s : Shape, Shape.size (dropOnes rank s) = Shape.size s
  | [] => rfl
  | n :: s => by
    unfold dropOnes
    split
    · rename_i h
      rw [size_dropOnes rank s, Shape.size_cons, h.1, Nat.one_mul]
    · rfl

/-- The entries that a centroid has as a row of the given shape. A row that is a single number only
    takes one without axes. -/
def rowEntries (inner : Shape) (centroid : Tensor α) : Except OperandFault (List α) :=
  let shape := dropOnes inner.length centroid.shape
  if inner.length < shape.length || (inner = [] && centroid.shape ≠ []) then .error .shapesDiffer
  else
    (Tensor.stretchTo ⟨shape, centroid.entries, by
      rw [size_dropOnes]; exact centroid.length_entries⟩ inner).map (·.entries)

/-- The rows set so far, and which of them. -/
structure Progress (α : Type) where
  rows : List (List α)
  filled : List Bool

/-- Puts one mean at the place of its cluster. -/
def place (k : Int) (inner : Shape) (p : Progress α) (entry : Int × Tensor α) :
    Outcome (Progress α) := do
  let (cluster, centroid) := entry
  if cluster < 0 || k ≤ cluster then throw (.argument (.clusterOutOfRange cluster k))
  if p.filled.getD cluster.toNat false then throw (.argument (.averagedTwice cluster))
  let row ← .ofOperands (rowEntries inner centroid)
  return ⟨p.rows.set cluster.toNat row, p.filled.set cluster.toNat true⟩

/-- The clusters that are not filled, ascending. -/
def unfilled (filled : List Bool) : List Int :=
  (filled.zipIdx.filter fun e => !e.1).map fun e => (e.2 : Int)

/-- The next centroids, and the collector that remembers the empty clusters. If the means do not
    fit, nothing changes. -/
def collect (c : Collector) (means : List (Int × Tensor α)) (previous : Tensor α) :
    Outcome (Tensor α × Collector) := do
  let count ← .ofOperands previous.rowCount
  if (count : Int) ≠ c.k then throw (.argument (.previousCount c.k count))
  -- a row stays as it was if no mean takes its place
  let start : Progress α := ⟨previous.rowLists, List.replicate count false⟩
  let done ← means.foldlM (place c.k previous.innerShape) start
  return (Tensor.ofRowLists previous.innerShape done.rows,
    { c with emptyClusters := unfilled done.filled })

end Collector

end ClusterRounds
