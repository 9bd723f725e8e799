/-
  ClusterRounds.Report

  What is told about a fitted model: some lines for the log, and a document with the
  centroids and the inertia of every round.
-/

import ClusterRounds.Estimator
import ClusterRounds.Files.Tree
import ClusterRounds.Log.Basic
import ClusterRounds.Value.Json

namespace ClusterRounds.Report

open Files Number

variable [Machine]

def nested : Shape → List Float → Value
  | [], xs => .float (xs.headD 0)
  | n :: inner, xs => .list ((pieces (Shape.size inner) n xs).map (nested inner))

def document (k : Nat) (centroids : Tensor Float) (r : RunResult Float) : Value :=
  .record [("k", .int k), ("n_rounds", .int r.rounds), ("converged", .bool r.converged),
    ("centroids", nested centroids.shape centroids.entries),
    ("inertia_history", .list (r.inertia.map .float))]

def documentText (k : Nat) (centroids : Tensor Float) (r : RunResult Float) : String :=
  Json.indented 0 (document k centroids r)

/-- Lines for the log, and what remains to be done, which may fail. -/
abbrev Telling (β : Type) := List Line × Outcome β

def summary (r : RunResult Float) : Line :=
  ⟨.info, "Finished " ++ toString r.rounds ++ " rounds (converged="
    ++ (Quantity.flag r.converged).shown ++ "), T_iter_total=" ++ fixedText 6 r.timings.total ++ "s"⟩

/-- The line on the speed of a run, unless it took no time. -/
def speed (k width : Nat) (r : RunResult Float) : Outcome (List Line) := do
  if 0 < r.timings.total then
    let rate ← Quality.throughput
      [.int r.labels.length, .int k, .int width, .int r.rounds] (.float r.timings.total)
    return [⟨.info, "Throughput: " ++ scientificText 3 rate ++ " ops/s"⟩]
  else return []

/-- The line on the inertia of the last round, if there has been one. -/
def lastInertia (r : RunResult Float) : List Line :=
  (r.inertia.getLast?.map fun x => Line.mk .info ("Inertia: " ++ fixedText 6 x)).toList

/-- Writes the document, if a path is given. -/
def write (tree : Tree) (output : String) (text : String) : Outcome (Tree × List Line) := do
  if output.isEmpty then return (tree, [])
  let tree ← (tree.write output (.text text)).mapError Failure.file
  return (tree, [⟨.info, "Centroids saved to " ++ output⟩])

/-- Tells about a model. The lines up to a failure count, and so does the tree. -/
def tell (tree : Tree) (m : Model Float) (output : String) : Outcome Unit × Tree × List Line :=
  match m.result with
  | none => (.error .noResult, tree, [])
  | some r =>
    match m.centroids.width with
    | .error e => (.error (.operand e), tree, [])
    | .ok width =>
      let k := m.centroids.rowTotal
      match speed k width r with
      | .error e => (.error e, tree, [summary r])
      | .ok rate =>
        let lines := summary r :: rate ++ lastInertia r
        match write tree output (documentText k m.centroids r) with
        | .error e => (.error e, tree, lines)
        | .ok (tree, saved) => (.ok (), tree, lines ++ saved)

end ClusterRounds.Report
