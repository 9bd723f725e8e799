/-
  ClusterRounds.Criterion

  When to stop. A criterion is asked once a round's centroids are complete and may
  remember something for the next question. The basic ones look at the number of
  rounds and at the change of the centroids; `anyOf` asks all its parts each time, so
  that each is up to date; two more follow a script or break down, to try a run out.
-/

import ClusterRounds.Quality
import ClusterRounds.Settings.Argument

namespace ClusterRounds

inductive Criterion (α : Type) where
  | rounds (limit : Quantity)
  /-- Stops when the largest change of a coordinate is below the tolerance; remembers the change. -/
  | change (tolerance : Quantity) (last : Option α)
  | anyOf (parts : List (Criterion α))
  /-- Answers from a list, then always yes. -/
  | scripted (answers : List Bool)
  /-- Stops at a number of rounds, but breaks down when asked about one of them. -/
  | breaking (limit : Quantity) (at_ : Int)
deriving Inhabited

namespace Criterion

variable {α : Type}

/-! ## Making criteria -/

/-- A limit on the number of rounds, which has to be positive. -/
def ofLimit (v : Value) : Outcome (Criterion α) := do
  return .rounds (← atLeastOne "max_iterations" v)

/-- A tolerance on the change of the centroids, which must not be negative. -/
def ofTolerance (v : Value) : Outcome (Criterion α) :=
  match v.quantity? with
  | none => .error (.operand .wrongKind)
  | some q =>
    if q.ltInt 0 then .error (.configuration .negativeThreshold) else .ok (.change q none)

/-- A limit on the rounds and, if there is a tolerance, one on the change. -/
def build (limit tolerance : Value) : Outcome (Criterion α) := do
  let limit ← ofLimit limit
  match tolerance with
  | .null => return limit
  | v => return .anyOf [limit, ← ofTolerance v]

def ofSettings (s : Settings) : Criterion α :=
  let limit := .rounds (.int s.maxRounds)
  match s.tolerance with
  | none => limit
  | some t => .anyOf [limit, .change t none]

/-! ## Asking -/

mutual

/-- Should the run stop after so many rounds, with these centroids and those before? -/
def ask [Scalar α] (round : Int) (centroids : Tensor α) (previous : Option (Tensor α)) :
    Criterion α → Outcome Bool × Criterion α
  | .rounds limit => (.ok (limit.leInt round), .rounds limit)
  | .change tolerance last =>
    -- without centroids before there is no change, and nothing to remember
    match previous with
    | none => (.ok false, .change tolerance last)
    | some previous =>
      match Quality.shift previous centroids with
      | .error e => (.error (.operand e), .change tolerance last)
      | .ok moved => (.ok (Scalar.isBelow moved tolerance), .change tolerance (some moved))
  | .anyOf parts =>
    let (answer, parts) := askAll round centroids previous parts
    (answer, .anyOf parts)
  | .scripted [] => (.ok true, .scripted [])
  | .scripted (answer :: rest) => (.ok answer, .scripted rest)
  | .breaking limit at_ =>
    if round = at_ then (.error (.worker "worker lost"), .breaking limit at_)
    else (.ok (limit.leInt round), .breaking limit at_)

/-- Asks every part in turn: does one of them stop the run? -/
def askAll [Scalar α] (round : Int) (centroids : Tensor α) (previous : Option (Tensor α)) :
    List (Criterion α) → Outcome Bool × List (Criterion α)
  | [] => (.ok false, [])
  | part :: rest =>
    match ask round centroids previous part with
    -- the parts behind it are not asked
    | (.error e, part) => (.error e, part :: rest)
    | (.ok stop, part) =>
      let (others, rest) := askAll round centroids previous rest
      (others.map (stop || ·), part :: rest)

end

mutual

/-- Was the change small enough when it was last looked at? -/
def hasConverged [Scalar α] : Criterion α → Bool
  | .change tolerance (some last) => Scalar.isBelow last tolerance
  | .anyOf parts => anyConverged parts
  | _ => false

def anyConverged [Scalar α] : List (Criterion α) → Bool
  | [] => false
  | part :: rest => hasConverged part || anyConverged rest

end

/-! ## How long it can go on -/

/-- The least integer that is at least the quantity, if there is one. -/
def ceiling? (q : Quantity) : Option Nat :=
  match q.truncate with
  | .ok n => some (if q.leInt n then n.toNat else (n + 1).toNat)
  | .error _ => none

/-- The smaller of two bounds. -/
def least : Option Nat → Option Nat → Option Nat
  | some a, some b => some (min a b)
  | some a, none => some a
  | none, b => b

mutual

/-- After how many rounds, counted from a round, the criterion has stopped the run for certain. -/
def horizon (start : Nat) : Criterion α → Option Nat
  | .rounds limit => (ceiling? limit).map (· - start + 1)
  | .breaking limit _ => (ceiling? limit).map (· - start + 1)
  | .scripted answers => some (answers.length + 1)
  -- the centroids may move for ever
  | .change _ _ => none
  | .anyOf parts => horizonOfAny start parts

def horizonOfAny (start : Nat) : List (Criterion α) → Option Nat
  | [] => none
  | part :: rest => least (horizon start part) (horizonOfAny start rest)

end

end Criterion

end ClusterRounds
