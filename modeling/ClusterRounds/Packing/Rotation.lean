/-
  ClusterRounds.Packing.Rotation

  The rotations of a sequence of octets in order. The octets at the ends of the sorted
  rotations, and the place of the sequence itself among them, determine the sequence:
  each octet's neighbour is found by counting how many octets are smaller.
-/

namespace ClusterRounds.Packing.Rotation

/-! ## Sorting -/

/-- The ranks of places that are in order: equal keys have one rank. -/
def ranksOf (size : Nat) (keys : List ((Nat × Nat) × Nat)) : Array Nat :=
  (keys.foldl (fun (state : Array Nat × Nat × Option (Nat × Nat)) (key, place) =>
    let (ranks, count, last) := state
    let count := if last = some key || last = none then count else count + 1
    (ranks.setIfInBounds place count, count, some key))
    (Array.replicate size 0, 0, none)).1

/-- Is a key at or before another one? -/
def isOrdered (a b : (Nat × Nat) × Nat) : Bool :=
  a.1.1 < b.1.1 || (a.1.1 = b.1.1 && a.1.2 ≤ b.1.2)

/-- The order of rotations by twice as many octets as the ranks tell apart. -/
def ordered (size known : Nat) (ranks : Array Nat) : List ((Nat × Nat) × Nat) :=
  ((List.range size).map fun i =>
    ((ranks.getD i 0, ranks.getD ((i + known) % size) 0), i)).mergeSort isOrdered

/-- The places of the rotations in order, when they are told apart by their first octets, then by
    twice as many, and so on. -/
def sorted (size : Nat) : Nat → Nat → Array Nat → List Nat
  | 0, _, _ => []
  | 1, known, ranks => (ordered size known ranks).map (·.2)
  | fuel + 2, known, ranks =>
    let next := ordered size known ranks
    if size ≤ 2 * known then next.map (·.2)
    else sorted size (fuel + 1) (2 * known) (ranksOf size next)

/-- The last octets of the sorted rotations, and the place of the sequence itself. -/
def transformed (cs : Array UInt8) : List UInt8 × Nat :=
  let order := sorted cs.size (cs.size.log2 + 2) 1 (cs.map UInt8.toNat)
  (order.map fun i => cs.getD ((i + cs.size - 1) % cs.size) 0, (order.idxOf? 0).getD 0)

/-! ## Going back -/

/-- How many octets are smaller than each one. -/
def smaller (cs : Array UInt8) : Array Nat :=
  let counts := cs.foldl (fun (counts : Array Nat) c => counts.modify c.toNat (· + 1))
    (Array.replicate 256 0)
  (counts.foldl (fun (state : Array Nat × Nat) n => (state.1.push state.2, state.2 + n))
    (#[], 0)).1

/-- The place of the octet that follows the one at each place. -/
def followers (cs : Array UInt8) : Array Nat :=
  (cs.foldl (fun (state : Array Nat × Array Nat × Nat) c =>
    let (next, free, i) := state
    (next.setIfInBounds (free.getD c.toNat 0) i, free.modify c.toNat (· + 1), i + 1))
    (Array.replicate cs.size 0, smaller cs, 0)).1

def along (cs : Array UInt8) (next : Array Nat) : Nat → Nat → ByteArray → ByteArray
  | 0, _, out => out
  | n + 1, place, out => along cs next n (next.getD place 0) (out.push (cs.getD place 0))

/-- The sequence whose sorted rotations end in the given octets, and which has the given place. -/
def restored (cs : Array UInt8) (place : Nat) : ByteArray :=
  let next := followers cs
  along cs next cs.size (next.getD place 0) .empty

end ClusterRounds.Packing.Rotation
