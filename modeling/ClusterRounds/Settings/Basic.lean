/-
  ClusterRounds.Settings.Basic

  The settings of one clustering, once they have been checked, with their text in
  messages and the comparison that decides whether two runs were asked for the same
  thing.
-/

import ClusterRounds.Schedule
import ClusterRounds.Value.Basic

namespace ClusterRounds

open Text

structure Settings where
  k : Nat
  /-- The most rounds that a run takes. -/
  maxRounds : Nat
  seed : Int
  measure : String
  /-- The field of a record that holds its coordinates. -/
  featuresColumn : Value
  /-- Below this change of the centroids a run has converged; without it only rounds count. -/
  tolerance : Option Quantity
  k_pos : 0 < k
  maxRounds_pos : 0 < maxRounds

namespace Settings

def shown (s : Settings) : String :=
  "KMeansConfig(k=" ++ toString s.k
    ++ ", max_iterations=" ++ toString s.maxRounds
    ++ ", seed=" ++ toString s.seed
    ++ ", distance_measure=" ++ quoted s.measure
    ++ ", features_column=" ++ s.featuresColumn.shown
    ++ ", tol=" ++ s.tolerance.elim "None" Quantity.shown
    ++ ", empty_cluster_policy=<EmptyClusterPolicy.RETAIN: 'retain'>)"

/-- The values that the text of settings writes out. -/
def named (s : Settings) : List Value :=
  [.int s.k, .int s.maxRounds, .int s.seed, s.featuresColumn,
    s.tolerance.elim .null Value.ofQuantity]

def sameTolerance : Option Quantity → Option Quantity → Bool
  | none, none => true
  | some a, some b => a.equal b
  | _, _ => false

/-- Do two settings ask for the same clustering? -/
def same (s t : Settings) : Bool :=
  s.k = t.k && s.maxRounds = t.maxRounds && s.seed = t.seed && s.measure = t.measure
    && s.featuresColumn.equal t.featuresColumn && sameTolerance s.tolerance t.tolerance

end Settings

/-- How the work of a round is divided. -/
structure Execution where
  /-- Into how many parts the points are split, if no chunk size is given. -/
  partitions : Quantity
  /-- How many workers were asked for. -/
  workers : Quantity
  /-- The number of points in a part. -/
  chunk : Option Nat
  /-- How many seconds a round may take; null for no limit. -/
  timeout : Value
  /-- The order in which the workers of a pool happen to come. -/
  schedule : Schedule := .inTurn

end ClusterRounds
