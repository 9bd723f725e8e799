/-
  ClusterRounds.Dataset.Seeding

  The initial centroids: all points are put in an order that the seed decides, and the
  first of them are taken.
-/

import ClusterRounds.Failure.Basic
import ClusterRounds.Random.Permuted
import ClusterRounds.Tensor.Basic

namespace ClusterRounds.Seeding

variable {α : Type}

/-- Seeds beyond 64 bits count modulo their number. -/
def reduce (seed : Int) : UInt64 := UInt64.ofNat (seed % 2 ^ 64).toNat

/-- The order of `n` points under a seed. -/
def order (seed : Int) (n : Nat) : List Nat :=
  (Random.order Random.Permuted.source (Random.Permuted.ofSeed (reduce seed)) n).1

/-- How many points the value asks for, if a number of points can be counted by it. -/
def count? : Value → Outcome Nat
  | .int i => .ok i.toNat
  | .bool b => .ok (if b then 1 else 0)
  | _ => .error (.operand .wrongKind)

/-- The first `k` points in the order of the seed. There have to be that many, and the seed has to
    be an integer. -/
def select (points : Tensor α) (k seed : Value) : Outcome (Tensor α) := do
  match points.shape with
  | [n, _] =>
    if ← .ofOperands (k.isBelow 1) then throw (.configuration (.sampleSize k))
    if ← .ofOperands (exceeds k n) then throw (.configuration (.sampleTooLarge k n))
    -- a flag counts as a number of points, but not as a seed
    let .int seed := seed | throw (.configuration (.seedNotInteger seed))
    return points.pick ((order seed n).take (← count? k))
  | shape => throw (.configuration (.sampleShape shape))
where
  /-- Does the value exceed a number of points? -/
  exceeds (k : Value) (n : Nat) : Except OperandFault Bool :=
    match k.quantity? with
    | some q => .ok (q.compareInt n == some .gt)
    | none => .error .wrongKind

end ClusterRounds.Seeding
