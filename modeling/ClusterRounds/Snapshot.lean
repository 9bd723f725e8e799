/-
  ClusterRounds.Snapshot

  What a checkpoint holds: the state of every partition, taken after the centroids of
  a round were handed out and before its boundary, with the round's number, those
  centroids, the settings, and the inertia of the rounds before. `validate` accepts a
  snapshot that a run can take up.
-/

import ClusterRounds.Failure.Basic
import ClusterRounds.Tensor.Basic

namespace ClusterRounds

/-- The stored state of an operator. Its points and sets are arrays of numbers by their type, so
    that something else in their place, which could not be made an array when it is taken up, is
    out of the question here. -/
structure PartitionSnapshot (α : Type) where
  id : Int
  points : Option (Tensor α)
  /-- The centroid sets that were handed out and not used yet. -/
  pending : List (Tensor α)
  /-- The last round whose boundary was passed. -/
  lastEpoch : Option Int
  phase : PhaseLabel

/-- The stored state of a run. -/
structure Snapshot (α : Type) where
  /-- The round that comes next. -/
  epoch : Int
  centroids : Tensor α
  partitions : List (Int × PartitionSnapshot α)
  settings : Settings
  inertia : List α

namespace Snapshot

variable {α : Type}

/-- The partition ids, ascending. -/
def ids (s : Snapshot α) : List Int := (s.partitions.map (·.1)).mergeSort fun a b => decide (a ≤ b)

def ordered (s : Snapshot α) : List (Int × PartitionSnapshot α) :=
  s.partitions.mergeSort fun a b => decide (a.1 ≤ b.1)

def validatePartition (epoch : Int) (entry : Int × PartitionSnapshot α) : Outcome Unit := do
  let (id, p) := entry
  if p.id ≠ id then throw (.recovery (.misfiled id p.id))
  if p.phase ≠ .known .accumulating then throw (.recovery (.phase id p.phase))
  if p.pending.length ≠ 1 then throw (.recovery (.pendingSets id p.pending.length epoch))
  match p.lastEpoch with
  | none => return
  | some last => if epoch ≤ last then throw (.recovery (.alreadyFired id last epoch))

/-- Is the snapshot one that a run can take up? -/
def validate (s : Snapshot α) : Outcome Unit := do
  if s.epoch < 0 then throw (.recovery (.negativeEpoch s.epoch))
  if s.centroids.rank ≠ 2 || s.centroids.rowTotal ≠ s.settings.k then
    throw (.recovery (.centroidShape s.centroids.shape s.settings.k))
  -- the partitions are numbered from zero on, in whichever order they are stored
  let contiguous := (List.range s.partitions.length).map fun (i : Nat) => (i : Int)
  if s.ids ≠ contiguous || s.partitions.isEmpty then
    throw (.recovery (.idsNotContiguous s.ids))
  s.partitions.forM (validatePartition s.epoch)

end Snapshot

end ClusterRounds
