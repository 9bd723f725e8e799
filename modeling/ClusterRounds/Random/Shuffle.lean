/-
  ClusterRounds.Random.Shuffle

  Shuffling with any source of 32-bit words. From the last place down, each entry
  changes places with one at or before it; the place is drawn from as many bits as are
  needed, again and again until it is not too large. Whatever is drawn, the entries
  stay the same.
-/

import ClusterRounds.Number.Power

namespace ClusterRounds.Random

/-- A source of random words: its state gives a word and the next state. -/
structure Source (σ : Type) where
  next : σ → UInt32 × σ

variable {σ β : Type}

/-- All bits up to the highest one of a number. -/
def bitMask (n : Nat) : Nat := 2 ^ (n.log2 + 1) - 1

/-- How often a draw is repeated at most. A single one fails less than every second time. -/
def patience : Nat := 1000

/-- A number of at most `high`, drawn until one is in range. -/
def drawUpTo (source : Source σ) (high : Nat) : Nat → σ → Nat × σ
  | 0, s => (0, s)
  | fuel + 1, s =>
    let (word, s) := source.next s
    let j := word.toNat &&& bitMask high
    if j ≤ high then (j, s) else drawUpTo source high fuel s

/-- Shuffles the places up to a given one. -/
def shuffleUpTo (source : Source σ) : Nat → σ → Array β → Array β × σ
  | 0, s, xs => (xs, s)
  | i + 1, s, xs =>
    let (j, s) := drawUpTo source (i + 1) patience s
    shuffleUpTo source i s (xs.swapIfInBounds (i + 1) j)

def shuffle (source : Source σ) (s : σ) (xs : Array β) : Array β × σ :=
  shuffleUpTo source (xs.size - 1) s xs

/-- A random order of the numbers below `n`. -/
def order (source : Source σ) (s : σ) (n : Nat) : List Nat × σ :=
  let (xs, s) := shuffle source s (Array.range n)
  (xs.toList, s)

/-! ## The entries stay -/

theorem swapIfInBounds_perm (xs : Array β) (i j : Nat) : (xs.swapIfInBounds i j).Perm xs := by
  unfold Array.swapIfInBounds
  split
  · split
    · exact Array.swap_perm _ _
    · exact .refl _
  · exact .refl _

theorem shuffleUpTo_perm (source : Source σ) :
    ∀ (n : Nat) (s : σ) (xs : Array β), (shuffleUpTo source n s xs).1.Perm xs
  | 0, _, xs => .refl xs
  | n + 1, _, xs => (shuffleUpTo_perm source n _ _).trans (swapIfInBounds_perm xs _ _)

theorem order_perm (source : Source σ) (s : σ) (n : Nat) :
    (order source s n).1.Perm (List.range n) := by
  have h := shuffleUpTo_perm source ((Array.range n).size - 1) s (Array.range n)
  simpa [order, shuffle] using h.toList

end ClusterRounds.Random
