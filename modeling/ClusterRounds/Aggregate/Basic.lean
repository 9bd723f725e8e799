/-
  ClusterRounds.Aggregate.Basic

  The sum and the number of the points of a cluster, and maps of them by cluster. An
  `Accumulator` may come from any part of the points; a `Partial` holds those of one
  part, in the order in which its clusters were met first.
-/

import ClusterRounds.Failure.Basic
import ClusterRounds.Scalar
import ClusterRounds.Tensor.Basic

namespace ClusterRounds

/-- The sum and the number of points of one cluster. -/
structure Accumulator (α : Type) where
  cluster : Int
  sum : Tensor α
  count : Int

/-- Accumulators by cluster; no cluster comes twice. -/
abbrev Partial (α : Type) := List (Int × Accumulator α)

namespace Accumulator

variable {α : Type}

/-- Both parts together. They have to be parts of one cluster. -/
def merge [Add α] (a b : Accumulator α) : Outcome (Accumulator α) := do
  if b.cluster ≠ a.cluster then throw (.argument (.otherCluster a.cluster b.cluster))
  let sum ← .ofOperands (Tensor.zipWith (· + ·) a.sum b.sum)
  return ⟨a.cluster, sum, a.count + b.count⟩

/-- The mean of the points, and their cluster. -/
def mean [Scalar α] (a : Accumulator α) : Outcome (Int × Tensor α) :=
  if a.count ≤ 0 then .error (.argument (.noPoints a.cluster a.count))
  else .ok (a.cluster, a.sum.map (· / Scalar.ofInt a.count))

/-- The mean in doubles. A number of points beyond the doubles has none. -/
def average (a : Accumulator Float) : Outcome (Int × Tensor Float) :=
  if 0 < a.count && (Number.floatOfInt? a.count).isNone then .error (.operand .tooLarge)
  else a.mean

end Accumulator

namespace Partial

variable {α : Type}

/-- The map of a list of accumulators: a cluster keeps its first place and its last value. -/
def ofList (xs : List (Accumulator α)) : Partial α :=
  xs.foldl (fun p a =>
    if p.any (·.1 = a.cluster) then p.map fun e => if e.1 = a.cluster then (a.cluster, a) else e
    else p ++ [(a.cluster, a)]) []

/-- Adds one accumulator: merged into that of its cluster, or at the end. -/
def add [Add α] : Partial α → Int → Accumulator α → Outcome (Partial α)
  | [], key, a => .ok [(key, a)]
  | (k, b) :: rest, key, a =>
    if k = key then do return (k, ← b.merge a) :: rest
    else do return (k, b) :: (← add rest key a)

/-- Both maps together: the clusters of the left one, then the new ones of the right one. -/
def merge [Add α] (left right : Partial α) : Outcome (Partial α) :=
  right.foldlM (fun merged e => merged.add e.1 e.2) left

end Partial

end ClusterRounds
