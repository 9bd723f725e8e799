/-
  ClusterRounds.Assigner

  The operator of one partition. It keeps the points it is given and the centroid
  sets of the coming round; at a round's boundary it labels every point with the
  nearest centroid of the one set it holds. A call returns the operator as it is
  afterwards also when it fails, since some failures leave traces.
-/

import ClusterRounds.Assignment
import ClusterRounds.Measure.Basic
import ClusterRounds.Snapshot

namespace ClusterRounds

structure Assigner (α : Type) where
  id : Int
  phase : Phase
  /-- The points, in the pieces in which they came. -/
  chunks : List (Tensor α)
  /-- The points as one array, once somebody has asked for it. -/
  joined : Option (Tensor α)
  /-- The centroid sets received since the last boundary. -/
  pending : List (Tensor α)
  /-- The last round whose boundary was passed. -/
  lastEpoch : Option Int

namespace Assigner

variable {α : Type}

/-- An operator that has received nothing. -/
def fresh (id : Int) : Assigner α := ⟨id, .accumulating, [], none, [], none⟩

def pointCount (a : Assigner α) : Nat := (a.chunks.map Tensor.rowTotal).foldl (· + ·) 0

/-- A terminated operator takes nothing. -/
def checkAlive (a : Assigner α) (delivery : Delivery) : Outcome Unit :=
  if a.phase = .terminated then .error (.protocol (.afterTermination a.id delivery)) else .ok ()

/-! ## Inputs -/

/-- Takes points, to be kept for all rounds. -/
def addPoints (a : Assigner α) (points : Tensor α) : Outcome (Assigner α) := do
  a.checkAlive .points
  return { a with chunks := a.chunks ++ [points.atLeastMatrix], joined := none }

/-- Takes a centroid set for the coming round. -/
def receive (a : Assigner α) (centroids : Tensor α) : Outcome (Assigner α) := do
  a.checkAlive .centroids
  return { a with pending := a.pending ++ [centroids] }

/-- The points as one array, and the operator that holds them as such. -/
def readPoints (a : Assigner α) : Outcome (Tensor α × Assigner α) :=
  match a.joined with
  | some points => .ok (points, a)
  | none => do
    let points ← if a.chunks.isEmpty then pure Tensor.noPoints else .ofOperands (Tensor.stack a.chunks)
    -- points without entries are no chunk, so what comes later is stacked without them
    let chunks := if points.entries.isEmpty then [] else [points]
    return (points, { a with joined := some points, chunks })

/-! ## The boundary of a round -/

/-- An answer, the operator afterwards, and how often its measure has been called. -/
structure Fired (α : Type) where
  answer : Outcome (Assignment α)
  assigner : Assigner α
  calls : Nat

/-- The one centroid set with which the boundary of a round can be passed. -/
def soleSet (a : Assigner α) (epoch : Int) : Outcome (Tensor α) := do
  a.checkAlive .boundary
  if let some last := a.lastEpoch then
    if epoch ≤ last then throw (.protocol (.firedAgain a.id epoch last))
  match a.pending with
  | [centroids] => return centroids
  | sets => throw (.protocol (.centroidSets a.id sets.length epoch))

/-- Points and centroids have to be of one width, if there are coordinates at all. -/
def checkWidths (id : Int) (points centroids : Tensor α) : Outcome Unit := do
  if points.entries.isEmpty then return
  let pointWidth ← .ofOperands points.width
  let centroidWidth ← .ofOperands centroids.width
  if pointWidth ≠ centroidWidth then throw (.protocol (.widths id pointWidth centroidWidth))

/-- Passes the boundary of a round: labels the points and uses up the centroid set. -/
def fire [Scalar α] (m : Measure α) (calls : Nat) (a : Assigner α) (epoch : Int) : Fired α :=
  match a.soleSet epoch with
  | .error e => ⟨.error e, a, calls⟩
  | .ok centroids =>
    -- whatever fails from here on leaves the operator at the boundary
    let firing := { a with phase := .firing }
    match firing.readPoints with
    | .error e => ⟨.error e, firing, calls⟩
    | .ok (points, firing) =>
      match checkWidths a.id points centroids with
      | .error e => ⟨.error e, firing, calls⟩
      | .ok () =>
        let calls := if points.rowTotal = 0 then calls else calls + 1
        match m.nearest calls points centroids with
        | .error e => ⟨.error e, firing, calls⟩
        | .ok labels =>
          ⟨.ok ⟨epoch, labels.map fun (l : Nat) => (l : Int), points⟩,
            { firing with phase := .accumulating, pending := [], lastEpoch := some epoch }, calls⟩

/-- Releases points and centroids for good. -/
def terminate (a : Assigner α) : Assigner α :=
  { a with phase := .terminated, chunks := [], joined := none, pending := [] }

/-! ## Snapshots -/

/-- The state to be stored, and the operator afterwards. -/
def snapshot (a : Assigner α) : Outcome (PartitionSnapshot α × Assigner α) := do
  let (points, a) ← a.readPoints
  return (⟨a.id, some points, a.pending, a.lastEpoch, .known a.phase⟩, a)

/-- The points of a snapshot that an operator can take up: it has to be empty and of the same
    partition, and the snapshot taken between rounds, with a matrix of points. -/
def acceptable (a : Assigner α) (s : PartitionSnapshot α) : Outcome (Tensor α) := do
  if !a.chunks.isEmpty || !a.pending.isEmpty || a.lastEpoch.isSome then
    throw (.recovery (.notEmpty a.id))
  if s.id ≠ a.id then throw (.recovery (.otherPartition s.id a.id))
  -- a boundary cannot be taken up in the middle of passing it
  if s.phase = .known .firing then throw (.recovery (.midRound a.id))
  match s.points with
  | none => throw (.recovery (.malformedPoints a.id))
  | some points =>
    if points.rank ≠ 2 then throw (.recovery (.malformedPoints a.id))
    return points

/-- Takes up a stored state. -/
def restore (a : Assigner α) (s : PartitionSnapshot α) : Outcome Unit × Assigner α :=
  match a.acceptable s with
  | .error e => (.error e, a)
  | .ok points =>
    let filled :=
      { a with
        chunks := if points.entries.isEmpty then [] else [points]
        joined := none
        pending := s.pending
        lastEpoch := s.lastEpoch }
    -- a phase without a meaning is noticed when everything else has been taken over
    match s.phase with
    | .known phase => (.ok (), { filled with phase })
    | .other _ => (.error (.operand .unknownName), filled)

end Assigner

end ClusterRounds
