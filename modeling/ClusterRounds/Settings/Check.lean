/-
  ClusterRounds.Settings.Check

  Settings from raw values. Each setting has a default, the checks run in a fixed
  order, and the first that fails is the answer.
-/

import ClusterRounds.Measure.Registry
import ClusterRounds.Settings.Argument

namespace ClusterRounds

namespace Settings

/-- What does a run do with a cluster that got no points? There is one policy. -/
def checkPolicy (v : Value) : Outcome Unit :=
  match v with
  | .text "retain" => .ok ()
  | _ => .error (.configuration (.unknownPolicy v))

/-- The tolerance: null, or a number that is not below zero. -/
def tolerance? (v : Value) : Outcome (Option Quantity) :=
  match v with
  | .null => .ok none
  | v =>
    match v.quantity? with
    | none => .error (.operand .wrongKind)
    | some q => if q.ltInt 0 then .error (.configuration (.negativeTolerance v)) else .ok (some q)

def ofArguments {α : Type} (registry : Registry α) (args : Arguments) : Outcome Settings := do
  args.onlyKnown ["k", "max_iterations", "seed", "distance_measure", "features_column", "tol",
    "empty_cluster_policy"]
  let k := args.get "k" (.int 2)
  let some ⟨clusters, k_pos⟩ := positiveInteger? k
    | throw (.configuration (.notPositiveInteger "k" k))
  let limit := args.get "max_iterations" (.int 20)
  let some ⟨maxRounds, maxRounds_pos⟩ := positiveInteger? limit
    | throw (.configuration (.notPositiveInteger "max_iterations" limit))
  let .int seed := args.get "seed" (.int 0)
    | throw (.configuration (.seedNotInteger (args.get "seed" (.int 0))))
  let tolerance ← tolerance? (args.get "tol" .null)
  let featuresColumn := args.get "features_column" (.text "features")
  if featuresColumn.isEmpty then throw (.configuration .emptyColumn)
  let measure := args.get "distance_measure" (.text "euclidean")
  discard (registry.get measure)
  checkPolicy (args.get "empty_cluster_policy" (.text "retain"))
  return { k := clusters, maxRounds, seed, measure := measure.plain, featuresColumn, tolerance,
           k_pos, maxRounds_pos }

end Settings

namespace Execution

/-- A chunk size: nothing, or what stands for a positive integer. -/
def chunk? (v : Value) : Outcome (Option Nat) :=
  match v with
  | .null => .ok none
  | v => do
    let size ← .ofOperands v.toInteger
    if size ≤ 0 then throw (.configuration (.notPositive "chunk_size"))
    return some size.toNat

/-- The division of work named by the arguments. -/
def ofArguments (args : Arguments) : Outcome Execution := do
  args.onlyKnown ["n_partitions", "n_workers", "chunk_size", "barrier_timeout"]
  let partitions ← atLeastOne "n_partitions" (args.get "n_partitions" (.int 4))
  let workers ← atLeastOne "n_workers" (args.get "n_workers" (.int 4))
  let chunk ← chunk? (args.get "chunk_size" .null)
  return { partitions, workers, chunk, timeout := args.get "barrier_timeout" .null }

def isTimeLimited (e : Execution) : Bool :=
  match e.timeout with
  | .null => false
  | _ => true

def processors : Int := 4

/-- How many workers there can be: those asked for, but not more than there are processors. -/
def effectiveWorkers (e : Execution) : Outcome Nat := do
  let asked ← .ofOperands e.workers.truncate
  -- at least one worker comes, however few were asked for
  return (max 1 (min asked processors)).toNat

end Execution

end ClusterRounds
