/-
  ClusterRounds.Dataset.Split

  Splitting points into partitions: into a number of parts that are as equal as can
  be, or into chunks of a size. Parts without points are left out, but there is always
  one part.
-/

import ClusterRounds.Settings.Check

namespace ClusterRounds.Split

variable {α : Type}

/-- The sizes of `n` parts of `total` rows: the first ones have one row more. Parts that would get
    no row are left out. -/
def evenSizes (total n : Nat) : List Nat :=
  List.replicate (total % n) (total / n + 1)
    ++ (if total / n = 0 then [] else List.replicate (n - total % n) (total / n))

/-- The sizes of chunks of `total` rows. -/
def chunkSizes (total size : Nat) : List Nat :=
  List.replicate (total / size) size ++ (if total % size = 0 then [] else [total % size])

/-- A list cut into parts of the given sizes. -/
def cut {β : Type} : List Nat → List β → List (List β)
  | [], _ => []
  | n :: rest, xs => xs.take n :: cut rest (xs.drop n)

/-- The parts of an array, or the array itself if there are none. -/
def parts (points : Tensor α) (sizes : List Nat) : List (Tensor α) :=
  match cut sizes points.rowLists with
  | [] => [points]
  | rows => rows.map (Tensor.ofRowLists points.innerShape)

/-- The most parts of one size that can be asked for. -/
def mostParts : Int := 2 ^ 63 - 1

/-- The octets that the list of the parts' sizes takes for each part. A list whose octets are no
    length does not come about; how much memory there is does not matter here. -/
def partSize : Nat := 8

/-- The partitions of points: chunks if a size is given, else a number of parts. -/
def partitions (points : Tensor α) (n : Quantity) (chunk : Option Nat) :
    Outcome (List (Tensor α)) := do
  let total ← .ofOperands points.rowCount
  match chunk with
  | some size => return parts points (chunkSizes total size)
  | none =>
    -- a number of parts that is not an integer is cut to one
    let n ← .ofOperands n.truncate
    -- the parts that do not get one of the remaining rows are of one size
    if mostParts < n - total % n then throw (.operand .tooLarge)
    if Shape.greatestLength < partSize * n.toNat then throw (.operand .noRoom)
    return parts points (evenSizes total n.toNat)

/-- The partitions that raw values ask for. The number of parts only matters without a chunk size. -/
def ofValues (points : Tensor α) (n chunk : Value) : Outcome (List (Tensor α)) := do
  discard (.ofOperands points.rowCount)
  match ← Execution.chunk? chunk with
  | some size => partitions points (.int 1) (some size)
  | none => partitions points (← atLeastOne "n_partitions" n) none

end ClusterRounds.Split
