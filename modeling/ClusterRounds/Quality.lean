/-
  ClusterRounds.Quality

  How good a clustering is, how much the centroids move, and how fast a run was.
-/

import ClusterRounds.Failure.Basic
import ClusterRounds.Scalar
import ClusterRounds.Tensor.Basic

namespace ClusterRounds.Quality

open Number

variable {α : Type}

/-- The place that a label names among `n` rows; negative labels count from the end. -/
def place? (n : Nat) (label : Int) : Option Nat :=
  if 0 ≤ label && label < n then some label.toNat
  else if label < 0 && 0 ≤ label + n then some (label + n).toNat
  else none

/-- The centroid of each label, as the rows of one array. -/
def assigned (centroids : Tensor α) (labels : List Int) : Except OperandFault (Tensor α) := do
  let n ← centroids.rowCount
  let rows := centroids.rowLists.toArray
  let chosen ← labels.mapM fun label =>
    match (place? n label).bind (rows[·]?) with
    | some row => .ok row
    | none => .error .rowOutOfRange
  return Tensor.ofRowLists centroids.innerShape chosen

/-- The sum of the squared differences between the points and the centroids of their labels. -/
def inertia [Scalar α] (points centroids : Tensor α) (labels : List Int) :
    Except OperandFault α := do
  -- then the centroids are not looked at
  if (← points.rowCount) = 0 then return 0
  let difference ← Tensor.zipWith (· - ·) points (← assigned centroids labels)
  if difference.rank ≠ 2 then throw .shapesDiffer
  return Scalar.sumSquares difference.entries

/-- The largest absolute change of a coordinate. -/
def shift [Scalar α] (old new : Tensor α) : Except OperandFault α := do
  let difference ← Tensor.zipWith (· - ·) new old
  Scalar.maximum (difference.entries.map Scalar.magnitude)

/-! ## Throughput -/

/-- The product of two quantities: exact for integers. -/
def product (a b : Quantity) : Except OperandFault Quantity :=
  match a, b with
  | .float x, q | q, .float x => do return .float (x * (← q.toFloat))
  | p, q => do return .int ((← p.truncate) * (← q.truncate))

/-- The quotient of two integers, rounded once. -/
def integerQuotient (num den : Int) : Except OperandFault Float :=
  (floatOfRatio? ((num < 0) != (den < 0)) num.natAbs den.natAbs).elim (.error .tooLarge) .ok

def quotient (a b : Quantity) : Except OperandFault Float :=
  match a, b with
  | .float x, q => do return x / (← q.toFloat)
  | q, .float x => do return (← q.toFloat) / x
  | p, q => do integerQuotient (← p.truncate) (← q.truncate)

/-- What values can be multiplied to: a number, or a text or a list that is repeated, of which only
    the length matters. -/
inductive Multiple where
  | number (q : Quantity)
  | sequence (isText : Bool) (length : Nat)

def Multiple.ofValue : Value → Except OperandFault Multiple
  | .text s => .ok (.sequence true s.length)
  | .list items => .ok (.sequence false items.length)
  | v => v.quantity?.elim (.error .wrongKind) fun q => .ok (.number q)

variable [Machine]

/-- The octets of a text's character, and of a list's item. -/
def itemSize (isText : Bool) : Nat := if isText then 1 else 8

/-- A sequence a number of times. The number has to be an integer that is no longer than a word, and
    what is made has to find room. -/
def repeated (isText : Bool) (length : Nat) (times : Quantity) : Except OperandFault Multiple := do
  -- even a double that is an integer does not count how often
  if times matches .float _ then throw .wrongKind
  let n ← times.truncate
  if n < -(2 ^ 63) || 2 ^ 63 ≤ n then throw .tooLarge
  let length := length * n.toNat
  if Shape.greatestLength < length then throw (if isText then .tooLarge else .noRoom)
  if Machine.room < itemSize isText * length then throw .noRoom
  return .sequence isText length

/-- The product of two factors. -/
def Multiple.times : Multiple → Multiple → Except OperandFault Multiple
  | .number p, .number q => return .number (← product p q)
  | .sequence isText length, .number q | .number q, .sequence isText length =>
    repeated isText length q
  | .sequence _ _, .sequence _ _ => .error .wrongKind

/-- Operations in a second: the number of points, clusters, coordinates and rounds, multiplied, over
    the time. No time at all has no rate. -/
def throughput (factors : List Value) (time : Value) : Outcome Float := do
  -- the time is looked at before the factors are
  if time.equal (.int 0) then throw .zeroTime
  .ofOperands do
    let total ← factors.foldlM (fun (total : Multiple) v => do total.times (← Multiple.ofValue v))
      (.number (.int 1))
    match total, time.quantity? with
    | .number total, some time => quotient total time
    | _, _ => throw .wrongKind

end ClusterRounds.Quality
