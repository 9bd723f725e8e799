/-
  ClusterRounds.Iteration.Run

  A whole run: from its first round, or from a snapshot. Whichever way the rounds end,
  the operators are released and the pool is closed; a run that comes to its end
  removes its checkpoint.
-/

import ClusterRounds.Iteration.Round

namespace ClusterRounds.Iteration

variable {α : Type} [Scalar α]

/-! ## The loop -/

/-- Rounds until the criterion stops the run, at most as many as the fuel. -/
def rounds (plan : Plan α) (first : Int) : Nat → Standing α → Step α (Standing α)
  | 0, _ => throw .endless
  | fuel + 1, here => do
    let (next, stop) ← round plan first here
    if stop then return next else rounds plan first fuel next

/-- How many rounds a run may take whose criterion has no bound of its own. -/
def patience : Nat := 1000000

/-- Opens a pool if there is work for more than one worker, or a limit on the time. -/
def openPool (plan : Plan α) : Step α Unit := do
  let effective ← Step.ofOutcome plan.execution.effectiveWorkers
  let s ← get
  let workers := min effective s.assigners.length
  if 1 < workers || plan.execution.isTimeLimited then set { s with pool := some workers }

/-- Removes the checkpoint of a run that keeps one. -/
def clearCheckpoint (plan : Plan α) : Step α Unit := do
  if plan.period.isSome then
    let s ← get
    let (done, slot) := s.slot.delete
    set { s with slot }
    Step.ofOutcome done

/-- The rounds from a round on, with everything that surrounds them. -/
def iterate (plan : Plan α) (centroids : Tensor α) (first : Int) (handedOut : Bool) :
    Step α (RunResult α) := do
  let s ← get
  let barrier ← Step.ofOutcome (Barrier.ofParties s.assigners.length)
  set { s with barrier := some barrier }
  -- a criterion without a bound of its own is given up on in the end
  let fuel := ((← get).criterion.horizon first.toNat).getD patience
  let last ← Step.thenRelease do
    openPool plan
    rounds plan first fuel
      { epoch := first, centroids, handedOut, converged := false, labels := [], timings := .zero }
  -- the checkpoint of a run that fails stays where it is
  clearCheckpoint plan
  Step.note (.finished last.epoch)
  return ⟨last.centroids, last.epoch, last.converged, last.labels, (← get).inertia, last.timings⟩

/-! ## From the first round -/

/-- Does the partition at a place fit centroids of a width? -/
def checkPartition (width : Nat) (entry : Tensor α × Nat) : Outcome Unit :=
  match entry.1.shape with
  | [n, w] =>
    if n ≠ 0 && w ≠ width then .error (.configuration (.partitionWidth entry.2 w width)) else .ok ()
  | shape => .error (.configuration (.partitionShape entry.2 shape))

/-- Do partitions and centroids fit the settings and each other? -/
def checkInputs (settings : Settings) (partitions : List (Tensor α)) (initial : Tensor α) :
    Outcome Unit :=
  if partitions.isEmpty then .error (.configuration .noPartitions)
  else
    match initial.shape with
    | [k, width] =>
      if k ≠ settings.k then .error (.configuration (.centroidShape settings.k initial.shape))
      else partitions.zipIdx.forM (checkPartition width)
    | shape => .error (.configuration (.centroidShape settings.k shape))

/-- A run over partitions of the points, from the initial centroids. -/
def run (plan : Plan α) (partitions : List (Tensor α)) (initial : Tensor α) :
    Step α (RunResult α) := do
  Step.ofOutcome (checkInputs plan.settings partitions initial)
  let assigners ← Step.ofOutcome <| partitions.zipIdx.mapM fun (points, i) =>
    (Assigner.fresh (i : Int)).addPoints points
  modify fun s => { s with assigners, inertia := [] }
  Step.note (.started partitions.length plan.settings.k plan.settings.maxRounds)
  iterate plan initial 0 false

/-! ## From a snapshot -/

/-- The snapshot to take up: the one given, or else that of the checkpoint. -/
def snapshotFor (plan : Plan α) (given : Option (Snapshot α)) : Step α (Snapshot α) := do
  match given with
  | some snapshot =>
    Step.ofOutcome snapshot.validate
    return snapshot
  | none =>
    if plan.period.isNone then throw (.configuration .noSnapshot)
    Step.ofOutcome (← get).slot.load

/-- A new operator takes up the state of one partition. -/
def restorePartition (entry : Int × PartitionSnapshot α) : Step α Unit := do
  let (done, a) := (Assigner.fresh entry.1).restore entry.2
  Step.ofOutcome done
  Step.note (.restored a.id a.pointCount a.pending.length a.lastEpoch)
  modify fun s => { s with assigners := s.assigners ++ [a] }

/-- The run of a snapshot, from the round before which it was taken. -/
def resume (plan : Plan α) (given : Option (Snapshot α)) : Step α (RunResult α) := do
  let snapshot ← snapshotFor plan given
  if !snapshot.settings.same plan.settings then
    throw (.configuration (.otherSettings snapshot.settings plan.settings))
  -- operators of an earlier run are let go only if the snapshot is one to take up
  modify fun s => { s with assigners := [] }
  snapshot.ordered.forM restorePartition
  modify fun s => { s with inertia := snapshot.inertia }
  Step.note (.resumed (snapshot.epoch + 1) snapshot.partitions.length)
  -- its centroids were handed out when the snapshot was taken
  iterate plan snapshot.centroids snapshot.epoch true

end ClusterRounds.Iteration
