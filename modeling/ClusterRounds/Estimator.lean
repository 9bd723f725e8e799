/-
  ClusterRounds.Estimator

  Fitting and predicting. An estimator holds what was asked for and what its runs
  share: the measure with its calls, the place of the checkpoint, the clock. Every fit
  is a session of its own. A model is the centroids of a run with the measure, and
  predicts by the nearest centroid.
-/

import ClusterRounds.Dataset.Seeding
import ClusterRounds.Dataset.Split
import ClusterRounds.Iteration.Run

namespace ClusterRounds

/-- Centroids and a measure, with the run that made them if one did. -/
structure Model (α : Type) where
  centroids : Tensor α
  measure : Measure α
  result : Option (RunResult α)

namespace Model

variable {α : Type}

def k (m : Model α) : Outcome Nat := .ofOperands m.centroids.rowCount

/-- Are these points that the model can label? -/
def checkQuery (m : Model α) (points : Tensor α) : Outcome Unit := do
  match points.shape with
  | [n, w] =>
    if n ≠ 0 then
      let width ← .ofOperands m.centroids.width
      if w ≠ width then throw (.configuration (.queryShape width points.shape))
  | shape =>
    let width ← .ofOperands m.centroids.width
    throw (.configuration (.queryShape width shape))

/-- The nearest centroid of every point, and how often the measure has been called then. -/
def predict [Scalar α] (m : Model α) (calls : Nat) (points : Tensor α) :
    Outcome (List Nat) × Nat :=
  match m.checkQuery points with
  | .error e => (.error e, calls)
  | .ok () =>
    let calls := if points.rowTotal = 0 then calls else calls + 1
    (m.measure.nearest calls points m.centroids, calls)

end Model

structure Estimator (α : Type) where
  plan : Plan α
  calls : Nat
  slot : Slot α
  clock : Clock

structure Fitted (α : Type) where
  answer : Outcome (Model α)
  estimator : Estimator α
  journal : List (Event α)
  /-- The tag of the run's lines, if it has one. -/
  tag : Option (Nat × Nat × Nat × Nat)

namespace Estimator

variable {α : Type} [Scalar α]

def session (e : Estimator α) : Session α :=
  { Session.start e.plan (.ofSettings e.plan.settings) e.slot e.clock with calls := e.calls }

/-- Carries out a run in a session of its own. -/
def carryOut (e : Estimator α) (tag : Option (Nat × Nat × Nat × Nat))
    (run : Step α (RunResult α)) : Fitted α :=
  let finish (answer : Outcome (RunResult α)) (s : Session α) : Fitted α :=
    { answer := answer.map fun r => ⟨r.centroids, e.plan.measure, some r⟩
      estimator := { e with calls := s.calls, slot := s.slot, clock := s.clock }
      journal := s.journal
      tag }
  -- even a run that fails has used the measure, the checkpoint and the clock
  match run e.session with
  | .ok r s => finish (.ok r) s
  | .error f s => finish (.error f) s

/-- What a run works on: its partitions, and the initial centroids, which are chosen if none are
    given. -/
def prepare (e : Estimator α) (points : Tensor α) (initial : Option (Tensor α)) :
    Outcome (List (Tensor α) × Tensor α) := do
  if points.rank ≠ 2 then throw (.configuration (.datasetShape points.shape))
  let settings := e.plan.settings
  -- points that are too few are reported before their splitting is
  let initial ←
    match initial with
    | some given => pure given
    | none => Seeding.select points (.int settings.k) (.int settings.seed)
  let partitions ← Split.partitions points e.plan.execution.partitions e.plan.execution.chunk
  return (partitions, initial)

def fit (e : Estimator α) (points : Tensor α) (initial : Option (Tensor α)) : Fitted α :=
  match e.prepare points initial with
  | .error f => ⟨.error f, e, [], none⟩
  | .ok (partitions, initial) =>
    let tag := (points.rowTotal, points.innerShape.headD 0, e.plan.settings.k, partitions.length)
    e.carryOut (some tag) (Iteration.run e.plan partitions initial)

/-- Takes up the run of the checkpoint. -/
def resume (e : Estimator α) : Fitted α :=
  if e.plan.period.isNone then ⟨.error (.configuration .noCheckpoint), e, [], none⟩
  else e.carryOut none (Iteration.resume e.plan none)

end Estimator

end ClusterRounds
