/-
  ClusterRounds.Files.StoredSnapshot

  Snapshots as text: a document with a mark as its first field. Doubles are written by
  the fewest digits that read back, so that a snapshot comes back as it was.
-/

import ClusterRounds.Settings.Check
import ClusterRounds.Snapshot
import ClusterRounds.Value.Json

namespace ClusterRounds.Files.StoredSnapshot

open Number

/-- The first field of every stored snapshot. -/
def mark : String := "checkpoint"

/-! ## Writing -/

def valueOfArray (t : Tensor Float) : Value :=
  .record [("shape", .list (t.shape.map fun (n : Nat) => .int n)),
    ("entries", .list (t.entries.map .float))]

def valueOfSettings (s : Settings) : Value :=
  .record [("k", .int s.k), ("max_iterations", .int s.maxRounds), ("seed", .int s.seed),
    ("distance_measure", .text s.measure), ("features_column", s.featuresColumn),
    ("tol", s.tolerance.elim .null .ofQuantity)]

def valueOfPartition (entry : Int × PartitionSnapshot Float) : Value :=
  let p := entry.2
  .record [("place", .int entry.1), ("id", .int p.id),
    ("points", p.points.elim .null valueOfArray),
    ("pending", .list (p.pending.map valueOfArray)),
    ("last_epoch", p.lastEpoch.elim .null .int), ("phase", .text p.phase.name)]

def write (s : Snapshot Float) : String :=
  Json.compact (.record [(mark, .int 1), ("epoch", .int s.epoch),
    ("centroids", valueOfArray s.centroids),
    ("partitions", .list (s.partitions.map valueOfPartition)),
    ("settings", valueOfSettings s.settings), ("inertia", .list (s.inertia.map .float))])

/-! ## Reading -/

def integer? : Value → Option Int
  | .int i => some i
  | _ => none

def items? : Value → Option (List Value)
  | .list items => some items
  | _ => none

def double? (v : Value) : Option Float :=
  v.quantity?.bind fun q => q.toFloat.toOption

def array? (v : Value) : Option (Tensor Float) := do
  let shape ← (← items? (← v.field? "shape")).mapM integer?
  let entries ← (← items? (← v.field? "entries")).mapM double?
  Tensor.ofEntries? (shape.map Int.toNat) entries

def settings? (v : Value) : Option Settings :=
  let registry : Registry Float := .standard
  match v with
  | .record fields => (Settings.ofArguments registry fields).toOption
  | _ => none

def partition? (v : Value) : Option (Int × PartitionSnapshot Float) := do
  let place ← integer? (← v.field? "place")
  let id ← integer? (← v.field? "id")
  let points ←
    match ← v.field? "points" with
    | .null => pure none
    | points => some <$> array? points
  let pending ← (← items? (← v.field? "pending")).mapM array?
  let lastEpoch := (← v.field? "last_epoch")
  let .text phase ← v.field? "phase" | none
  return (place, ⟨id, points, pending, integer? lastEpoch, .ofName phase⟩)

def read? (s : String) : Option (Snapshot Float) := do
  let v ← (Json.read s).toOption
  discard (v.field? mark)
  let epoch ← integer? (← v.field? "epoch")
  let centroids ← array? (← v.field? "centroids")
  let partitions ← (← items? (← v.field? "partitions")).mapM partition?
  let settings ← settings? (← v.field? "settings")
  let inertia ← (← items? (← v.field? "inertia")).mapM double?
  return ⟨epoch, centroids, partitions, settings, inertia⟩

end ClusterRounds.Files.StoredSnapshot
