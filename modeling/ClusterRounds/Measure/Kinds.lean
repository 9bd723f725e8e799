/-
  ClusterRounds.Measure.Kinds

  The measures there are: the Euclidean one, which computes its matrix from
  differences of rows, measures that add up coordinates one by one, and Euclidean
  ones that break down at a given call or take their time.
-/

import ClusterRounds.Measure.Basic

namespace ClusterRounds.Measure

variable {α : Type} [Scalar α]

/-! ## The Euclidean measure -/

/-- The root of the product of an array with itself: of a number or a vector the sum of squares;
    a matrix product is not a single number. -/
def norm (t : Tensor α) : Except OperandFault α :=
  match t.shape with
  | [] | [_] => .ok (Scalar.root (Scalar.sumSquares t.entries))
  | shape =>
    -- only square matrices can be multiplied by themselves, and the product is a matrix
    if shape.getLast? = shape.dropLast.getLast? then .error .notASingleNumber
    else .error .shapesDiffer

/-- The root of the sum of the squared differences. -/
def euclideanDistance (a b : Tensor α) : Except OperandFault α := do
  norm (← Tensor.zipWith (· - ·) a b)

/-- A row brought to a width: one coordinate is repeated, any other row stays. -/
def widen (width : Nat) (row : List α) : List α :=
  if row.length = width then row else List.replicate width (row.headD 0)

/-- The distance of two rows of one width. -/
def rowDistance (point centroid : List α) : α :=
  Scalar.root (Scalar.sumSquares (List.zipWith (· - ·) point centroid))

/-- The matrix of all points and centroids. Both have to be matrices of one width, where a width
    of one fits any other. -/
def euclideanMatrix (points centroids : Tensor α) : Except OperandFault (DistanceMatrix α) := do
  -- an array without a second axis is reported before other shapes are
  let pointWidth ← points.width
  let centroidWidth ← centroids.width
  if points.rank ≠ 2 || centroids.rank ≠ 2 then throw .shapesDiffer
  match Shape.joinAxis pointWidth centroidWidth with
  | none => throw .shapesDiffer
  | some width =>
    let centroidRows := centroids.rowLists.map (widen width)
    return points.rowLists.map fun point => centroidRows.map (rowDistance (widen width point))

def euclidean (className : String) : Measure α where
  className
  distance := euclideanDistance
  pairwise _ points centroids := .ofOperands (euclideanMatrix points centroids)
  delay _ := 0

/-! ## Measures that add up coordinates -/

/-- Adds up what each pair of coordinates contributes to the total so far, over the common length
    of two vectors. -/
def accumulated (contribute : α → α → α) (a b : Tensor α) : Except OperandFault α :=
  match a.shape, b.shape with
  | [], _ | _, [] => .error .wrongKind
  | [_], [_] => .ok ((List.zipWith (· - ·) a.entries b.entries).foldl contribute 0)
  -- the coordinates are rows here, so a sum of them is no number
  | m :: _, n :: _ => if m = 0 || n = 0 then .ok 0 else .error .notASingleNumber

/-- The sum of the absolute differences. -/
def manhattan (className : String) : Measure α :=
  ofDistance className (accumulated fun total d => total + Scalar.magnitude d)

/-- The largest absolute difference. -/
def chebyshev (className : String) : Measure α :=
  ofDistance className <| accumulated fun total d =>
    if Scalar.less total (Scalar.magnitude d) then Scalar.magnitude d else total

/-- The sum of the positive differences, which is not symmetric. -/
def oneSided (className : String) : Measure α :=
  ofDistance className <| accumulated fun total d =>
    total + (if Scalar.less 0 d then d else 0)

/-- The measure under which everything is near. -/
def trivial (className : String) : Measure α :=
  ofDistance className fun _ _ => .ok 0

/-! ## Measures that misbehave -/

def failingAt (m : Measure α) (at_ : Int) (text : String) : Measure α :=
  { m with
    pairwise := fun call points centroids =>
      if (call : Int) = at_ then .error (.protocol (.measure text))
      else m.pairwise call points centroids }

/-- The measure, but a call on exactly so many points takes some seconds. -/
def slowedOn (m : Measure α) (size : Int) (seconds : Float) : Measure α :=
  { m with delay := fun points => if (points : Int) = size then seconds else m.delay points }

end ClusterRounds.Measure
