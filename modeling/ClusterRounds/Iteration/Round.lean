/-
  ClusterRounds.Iteration.Round

  One round: the centroids are handed out and, in some rounds, a checkpoint is saved;
  every partition labels its points, adds them up and arrives at the barrier; the
  partials are merged and averaged into the next centroids; and the criterion is asked
  whether to stop.

  A round that is cut off does not wait for the workers who are still at it. Here all
  their moves are made before the cut-off, so the session that the round leaves is the
  one of a moment when nobody is at work any more. What a worker who was left behind
  does afterwards, to an operator that has been let go by then, is not followed: the
  operators and the barrier of a round are its own, and no later run meets them.
-/

import ClusterRounds.Iteration.Session

namespace ClusterRounds.Iteration

variable {α : Type} [Scalar α]

/-! ## Handing out the centroids -/

/-- Every operator receives the same set. -/
def broadcast (centroids : Tensor α) : Step α Unit := do
  let s ← get
  let assigners ← Step.ofOutcome (s.assigners.mapM (·.receive centroids))
  set { s with assigners }

/-- The stored states of operators, and the operators afterwards. The first that fails ends it. -/
def snapshotAll : List (Assigner α) →
    Outcome (List (Int × PartitionSnapshot α)) × List (Assigner α)
  | [] => (.ok [], [])
  | a :: rest =>
    match a.snapshot with
    | .error e => (.error e, a :: rest)
    | .ok (stored, a) =>
      -- what one operator has joined stays joined, even if another one fails
      let (others, rest) := snapshotAll rest
      (others.map ((a.id, stored) :: ·), a :: rest)

/-- The snapshot of the session before the boundary of a round. -/
def takeSnapshot (plan : Plan α) (epoch : Int) (centroids : Tensor α) : Step α (Snapshot α) := do
  let s ← get
  let (stored, assigners) := snapshotAll s.assigners
  set { s with assigners }
  let partitions ← Step.ofOutcome stored
  return ⟨epoch, centroids, partitions, plan.settings, s.inertia⟩

def save (snapshot : Snapshot α) : Step α Unit := do
  let s ← get
  -- a save that fails counts as one that was tried
  let (done, slot) := s.slot.save snapshot
  set { s with slot }
  Step.ofOutcome done
  Step.note (.saved (snapshot.epoch + 1) slot.location)

/-- Saves a checkpoint if the round's number is a multiple of the period. -/
def checkpoint (plan : Plan α) (epoch : Int) (centroids : Tensor α) : Step α Unit := do
  match plan.period with
  | none => return
  | some period =>
    if period.divides epoch then save (← takeSnapshot plan epoch centroids)

/-! ## The boundary in every partition -/

/-- What a partition brings to the barrier: its sums and its inertia against the centroids. -/
def output (k : Nat) (centroids : Tensor α) (a : Assignment α) : Outcome (PartitionOutput α) := do
  let sums ← Aggregate.accumulate a k
  let inertia ←
    -- the points of an empty partition may have another width than the centroids
    if a.labels.isEmpty then pure 0
    else .ofOperands (Quality.inertia a.points centroids a.labels)
  return ⟨sums, inertia, a.labels⟩

/-- What a partition has made and not brought to the barrier yet. -/
structure InHand (α : Type) where
  place : Nat
  party : Int
  output : PartitionOutput α

/-- The partition at a place passes the boundary of the round and makes its output. -/
def firePartition (plan : Plan α) (epoch : Int) (centroids : Tensor α) (place : Nat) :
    Step α (Option (InHand α)) := do
  let s ← get
  match s.assigners[place]? with
  | none => return none
  | some a =>
    -- a firing that fails has changed the operator, and has called the measure
    let fired := a.fire plan.measure s.calls epoch
    set { s with assigners := s.assigners.set place fired.assigner, calls := fired.calls }
    let assignment ← Step.ofOutcome fired.answer
    let output ← Step.ofOutcome (output plan.settings.k centroids assignment)
    return some ⟨place, a.id, output⟩

/-- An output arrives at the barrier. -/
def deliver (epoch : Int) (made : InHand α) : Step α Unit := do
  let s ← get
  match s.barrier with
  | none => return
  | some barrier =>
    let barrier ← Step.ofOutcome (barrier.arrive made.party epoch made.output)
    set { s with barrier := some barrier }

/-! ## Workers -/

/-- How far the workers have come: the outputs that were made, and the groups of partitions that
    have ended with a failure, in the order in which they did. -/
structure Crew (α : Type) where
  made : List (InHand α)
  failed : List (Nat × Failure)

/-- What a move does; what was made by now, afterwards. -/
def act (plan : Plan α) (epoch : Int) (centroids : Tensor α) (made : List (InHand α)) :
    Move → Step α (List (InHand α))
  | .fire place => do return made ++ (← firePartition plan epoch centroids place).toList
  | .arrive place =>
    match made.find? (·.place = place) with
    | none => return made
    | some output => do
      deliver epoch output
      return made

/-- One move, of a partition in groups of a size. A group that has failed makes no more moves. -/
def move (plan : Plan α) (epoch : Int) (centroids : Tensor α) (size : Nat) (crew : Crew α)
    (m : Move) : Step α (Crew α) := do
  let group := m.place / size
  if crew.failed.any (·.1 = group) then return crew
  match ← Step.attempt (act plan epoch centroids crew.made m) with
  | .ok made => return { crew with made }
  | .error failure => return { crew with failed := crew.failed ++ [(group, failure)] }

/-- All moves, one after the other; the answer is the failure of the group that failed first. -/
def makeMoves (plan : Plan α) (epoch : Int) (centroids : Tensor α) (size : Nat)
    (moves : List Move) : Step α (Option Failure) := do
  let crew ← moves.foldlM (move plan epoch centroids size) ⟨[], []⟩
  return crew.failed.head?.map (·.2)

def raise : Option Failure → Step α Unit
  | none => return
  | some failure => throw failure

def groups {β : Type} (size : Nat) (xs : List β) : List (List β) :=
  pieces size ((xs.length + size - 1) / size) xs

/-- How many partitions a worker takes at a time: four helpings for each worker. -/
def groupSize (partitions workers : Nat) : Nat := max 1 ((partitions + 4 * workers - 1) / (4 * workers))

/-- When the last worker is done, if each group goes to the worker who is free first. -/
def makespan (workers : Nat) (durations : List Float) : Float :=
  let free := durations.foldl (fun free d =>
    match free.mergeSort (fun a b => decide (a ≤ b)) with
    | [] => []
    | t :: rest => (t + d) :: rest) (List.replicate workers 0)
  free.foldl (fun a b => if a < b then b else a) 0

/-- The longest time that can be waited for, in seconds. -/
def longestWait : Float := 9223372036

/-- Is a round that takes so long cut off? Without a limit none is, a limit that is not positive
    cuts off every round, and one that is no number or too long cannot be waited for. -/
def isCutOff (limit : Value) (duration : Float) : Outcome Bool :=
  match limit with
  | .null => .ok false
  | v => do
    -- a limit that is no number shows only when it is waited for
    let some q := v.quantity? | throw (.operand .wrongKind)
    let seconds ← .ofOperands q.toFloat
    if longestWait < seconds then throw (.operand .tooLarge)
    return !(0 < seconds) || seconds < duration

/-- The seconds that the measure takes for a partition. -/
def duration (plan : Plan α) (a : Assigner α) : Float :=
  if a.pointCount = 0 then 0 else plan.measure.delay a.pointCount

/-- All partitions one after the other, up to the first that fails. -/
def fireInTurn (plan : Plan α) (epoch : Int) (centroids : Tensor α) : Step α Unit := do
  let n := (← get).assigners.length
  raise (← makeMoves plan epoch centroids n (Move.inTurn n))

/-- All partitions by a pool of workers, in the order in which they come to it. The partitions of a
    group follow each other; the first failure is that of the round, unless the round is cut off.
    A cut-off takes nothing back, and all moves count as made before it. -/
def fireInPool (plan : Plan α) (epoch : Int) (centroids : Tensor α) (workers : Nat) :
    Step α Unit := do
  let s ← get
  let n := s.assigners.length
  let size := groupSize n workers
  let durations := (groups size (List.range n)).map fun places =>
    (places.map fun i => (s.assigners[i]?.map (duration plan)).getD 0).foldl (· + ·) 0
  let failure ← makeMoves plan epoch centroids size (plan.execution.schedule.moves epoch n)
  -- the workers are waited for as a whole, before any failure of theirs is looked at
  if ← Step.ofOutcome (isCutOff plan.execution.timeout (makespan workers durations)) then
    throw (.protocol (.timedOut (epoch + 1) plan.execution.timeout))
  raise failure

/-- All partitions, by the workers of a pool if there is one. -/
def fireAll (plan : Plan α) (epoch : Int) (centroids : Tensor α) : Option Nat → Step α Unit
  | none => fireInTurn plan epoch centroids
  | some workers => fireInPool plan epoch centroids workers

def openBarrier (epoch : Int) : Step α Unit := do
  let s ← get
  let some barrier := s.barrier | throw (.protocol (.outside (epoch + 1)))
  set { s with barrier := some (← Step.ofOutcome (barrier.openFor epoch)) }

/-- What all partitions have brought to the barrier, in their order; it is closed by this. -/
def closeBarrier (epoch : Int) : Step α (List (PartitionOutput α)) := do
  let s ← get
  let some barrier := s.barrier | throw (.protocol (.outside (epoch + 1)))
  let (outputs, barrier) ← Step.ofOutcome (barrier.wait epoch)
  set { s with barrier := some barrier }
  return outputs

/-- The outputs of all partitions for a round, in the order of the partitions. -/
def firePartitions (plan : Plan α) (epoch : Int) (centroids : Tensor α) :
    Step α (List (PartitionOutput α)) := do
  openBarrier epoch
  fireAll plan epoch centroids (← get).pool
  closeBarrier epoch

/-! ## The next centroids -/

def update (outputs : List (PartitionOutput α)) (centroids : Tensor α) : Step α (Tensor α) := do
  let merged ← Step.ofOutcome (Aggregate.reduce (outputs.map (·.sums)))
  let means ← Step.ofOutcome (merged.mapM fun e => e.2.mean)
  let s ← get
  let (next, collector) ← Step.ofOutcome (s.collector.collect means centroids)
  set { s with collector }
  if !collector.emptyClusters.isEmpty then Step.note (.retained collector.emptyClusters)
  return next

/-- Asks the criterion about the centroids that a round has formed. -/
def askCriterion (round : Int) (next previous : Tensor α) : Step α Bool := do
  let s ← get
  let (answer, criterion) := s.criterion.ask round next (some previous)
  set { s with criterion }
  Step.note (.asked round next answer.toOption)
  Step.ofOutcome answer

/-! ## The whole round -/

/-- Where a run stands between two rounds. -/
structure Standing (α : Type) where
  epoch : Int
  centroids : Tensor α
  handedOut : Bool
  converged : Bool
  labels : List Int
  timings : Timings

/-- Hands out the centroids if that has not been done, and saves a checkpoint then. -/
def prepare (plan : Plan α) (here : Standing α) : Step α Unit := do
  if !here.handedOut then
    broadcast here.centroids
    checkpoint plan here.epoch here.centroids

/-- Is a round reported? The first one is, every tenth, and the last. -/
def isReported (first round : Int) (stop : Bool) : Bool :=
  round = first + 1 || round % 10 = 0 || stop

def announce (first : Int) (stop : Bool) (report : RoundReport α) : Step α Unit := do
  if isReported first report.round stop then Step.note (.roundDone report)

/-- One round; the answer says whether it was the last. -/
def round (plan : Plan α) (first : Int) (here : Standing α) : Step α (Standing α × Bool) := do
  prepare plan here
  let (outputs, assign) ← Step.timed (firePartitions plan here.epoch here.centroids)
  let (next, update) ← Step.timed (update outputs here.centroids)
  let inertia := (outputs.map (·.inertia)).foldl (· + ·) 0
  -- the inertia is against the centroids by which the points were labelled
  modify fun s => { s with inertia := s.inertia ++ [inertia] }
  let round := here.epoch + 1
  let change ← Step.ofOperands (Quality.shift here.centroids next)
  let stop ← askCriterion round next here.centroids
  -- a criterion of another kind has converged if it stops before the largest number of rounds
  let converged := (← get).criterion.hasConverged || (stop && round < plan.settings.maxRounds)
  announce first stop
    ⟨round, plan.settings.maxRounds, converged, assign.elapsed, update.elapsed, change⟩
  return ({ epoch := round
            centroids := next
            handedOut := false
            converged
            labels := (outputs.map (·.labels)).flatten
            timings := here.timings.addRound assign.elapsed update.elapsed }, stop)

end ClusterRounds.Iteration
