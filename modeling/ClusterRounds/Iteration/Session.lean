/-
  ClusterRounds.Iteration.Session

  What a run works with. A `Plan` is what was asked for and never changes; a `Session`
  is everything that does: the operators of the partitions, the barrier, what the
  collector and the criterion remember, the checkpoint, the clock, and a journal of
  what has happened. A `Step` may fail, and then still leaves a session.
-/

import ClusterRounds.Aggregate.Local
import ClusterRounds.Aggregate.Reduce
import ClusterRounds.Assigner
import ClusterRounds.Barrier
import ClusterRounds.Collector
import ClusterRounds.Criterion
import ClusterRounds.Settings.Check
import ClusterRounds.Slot
import ClusterRounds.Timing

namespace ClusterRounds

structure Plan (α : Type) where
  settings : Settings
  execution : Execution
  measure : Measure α
  /-- Every how many rounds a checkpoint is saved; none without checkpoints. -/
  period : Option Quantity

structure PartitionOutput (α : Type) where
  sums : Partial α
  inertia : α
  labels : List Int

structure RoundReport (α : Type) where
  round : Int
  limit : Nat
  converged : Bool
  assign : Float
  update : Float
  change : α

inductive Event (α : Type) where
  | started (partitions k limit : Nat)
  | restored (id : Int) (points sets : Nat) (lastEpoch : Option Int)
  | resumed (round : Int) (partitions : Nat)
  | saved (round : Int) (location : String)
  | retained (clusters : List Int)
  /-- The criterion was asked; without an answer it broke down. -/
  | asked (round : Int) (centroids : Tensor α) (answer : Option Bool)
  | roundDone (report : RoundReport α)
  | finished (rounds : Int)

structure Session (α : Type) where
  assigners : List (Assigner α)
  barrier : Option (Barrier (PartitionOutput α))
  collector : Collector
  /-- The inertia of each round so far. -/
  inertia : List α
  criterion : Criterion α
  calls : Nat
  /-- The number of workers of the open pool, if one is open. -/
  pool : Option Nat
  slot : Slot α
  clock : Clock
  journal : List (Event α)

structure RunResult (α : Type) where
  centroids : Tensor α
  rounds : Int
  converged : Bool
  /-- The labels of the last round, in the order of the partitions. -/
  labels : List Int
  inertia : List α
  timings : Timings

/-- A computation on a session that may fail; what it did before it failed stays done. -/
abbrev Step (α β : Type) := EStateM Failure (Session α) β

namespace Session

variable {α : Type}

/-- A session in which nothing has happened. -/
def start (plan : Plan α) (criterion : Criterion α) (slot : Slot α) (clock : Clock) : Session α where
  assigners := []
  barrier := none
  collector := .ofSize plan.settings.k
  inertia := []
  criterion
  calls := 0
  pool := none
  slot
  clock
  journal := []

/-- Every operator lets go of its points, and the pool is closed. -/
def release (s : Session α) : Session α :=
  { s with assigners := s.assigners.map Assigner.terminate, pool := none }

end Session

namespace Step

variable {α β : Type}

/-- A computation that does not touch the session. -/
def ofOutcome (x : Outcome β) : Step α β := fun s =>
  match x with
  | .ok b => .ok b s
  | .error e => .error e s

def ofOperands (x : Except OperandFault β) : Step α β := ofOutcome (.ofOperands x)

def note (e : Event α) : Step α Unit := modify fun s => { s with journal := s.journal ++ [e] }

/-- The answer of a computation, or its failure; what it did stays done. -/
def attempt (x : Step α β) : Step α (Outcome β) := fun s =>
  match x s with
  | .ok b s => .ok (.ok b) s
  | .error e s => .ok (.error e) s

/-- Measures the time of a computation. The clock is read twice, also if it fails. -/
def timed (x : Step α β) : Step α (β × Stretch) := fun s =>
  let (start, clock) := s.clock.read
  match x { s with clock } with
  | .ok b s =>
    let (stop, clock) := s.clock.read
    .ok (b, ⟨start, stop⟩) { s with clock }
  -- the time of a failure is read and dropped
  | .error e s => .error e { s with clock := s.clock.read.2 }

/-- Releases what the session holds when the computation is over, whichever way it ends. -/
def thenRelease (x : Step α β) : Step α β := fun s =>
  match x s with
  | .ok b s => .ok b s.release
  | .error e s => .error e s.release

end Step

end ClusterRounds
