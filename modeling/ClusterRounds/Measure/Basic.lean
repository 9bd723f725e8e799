/-
  ClusterRounds.Measure.Basic

  Distance measures. A measure gives the distance of two arrays, and the matrix of
  the distances of every point to every centroid. The matrix may depend on how often
  the measure has been asked, since a measure is a value in use that can break down;
  one that does not is stateless. `elementwise` makes the matrix out of single
  distances, `nearest` reads the labels off it.
-/

import ClusterRounds.Failure.Basic
import ClusterRounds.Scalar
import ClusterRounds.Tensor.Basic

namespace ClusterRounds

/-- The distances of every point to every centroid: a row for each point. -/
abbrev DistanceMatrix (α : Type) := List (List α)

structure Measure (α : Type) where
  className : String
  distance : Tensor α → Tensor α → Except OperandFault α
  /-- The distances of points to centroids, at the measure's n-th call. -/
  pairwise : Nat → Tensor α → Tensor α → Outcome (DistanceMatrix α)
  /-- The seconds that a call on so many points takes. -/
  delay : Nat → Float

namespace Measure

variable {α : Type}

def shown (m : Measure α) : String := m.className ++ "()"

/-- Does the measure answer the same at every call? -/
def Stateless (m : Measure α) : Prop :=
  ∀ i j points centroids, m.pairwise i points centroids = m.pairwise j points centroids

/-- Does the matrix have a row for each point, made of the point and the centroids alone, with an
    entry for each centroid? -/
def RowByRow (m : Measure α) (row : Tensor α → List α → List α) : Prop :=
  ∀ call points centroids, points.rank = 2 → centroids.rank = 2 →
    points.innerShape = centroids.innerShape →
    m.pairwise call points centroids = .ok (points.rowLists.map (row centroids)) ∧
    ∀ point ∈ points.rowLists, (row centroids point).length = centroids.rowTotal

/-! ## Matrices out of distances -/

/-- The distance of each centroid to each point, one after the other. -/
def elementwise (distance : Tensor α → Tensor α → Except OperandFault α)
    (points centroids : Tensor α) : Except OperandFault (DistanceMatrix α) := do
  discard points.rowCount
  discard centroids.rowCount
  points.rows.mapM fun point => centroids.rows.mapM fun centroid => distance centroid point

/-- A measure that only knows single distances. -/
def ofDistance (className : String) (distance : Tensor α → Tensor α → Except OperandFault α) :
    Measure α where
  className
  distance
  pairwise _ points centroids := .ofOperands (elementwise distance points centroids)
  delay _ := 0

/-! ## Labels -/

/-- The label of each point: the place of the first least distance in its row. -/
def labels [Scalar α] (matrix : DistanceMatrix α) : Except OperandFault (List Nat) :=
  matrix.mapM Scalar.argMin

/-- The nearest centroid of every point. Without points the measure is not asked. -/
def nearest [Scalar α] (m : Measure α) (call : Nat) (points centroids : Tensor α) :
    Outcome (List Nat) := do
  if (← .ofOperands points.rowCount) = 0 then return []
  .ofOperands (labels (← m.pairwise call points centroids))

end Measure

end ClusterRounds
