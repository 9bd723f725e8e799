/-
  ClusterRounds.Random.Permuted

  A permuted congruential generator of 128 bits, with the scheme that spreads a seed
  over its state. Words are drawn in halves, the low one first. All arithmetic wraps.
-/

import ClusterRounds.Random.Shuffle

namespace ClusterRounds.Random.Permuted

/-! ## Spreading a seed -/

/-- The 32-bit words of a number, lowest first; zero has one. -/
def seedWords (seed : UInt64) : List UInt32 :=
  let low := seed.toUInt32
  let high := (seed >>> 32).toUInt32
  if high = 0 then [low] else [low, high]

/-- Brings a word into a running hash: the hashed word and the next constant. -/
def hashWord (multiplier constant word : UInt32) : UInt32 × UInt32 :=
  let next := constant * multiplier
  let v := (word ^^^ constant) * next
  (v ^^^ (v >>> 16), next)

def mixWords (x y : UInt32) : UInt32 :=
  let r := 0xca01f9dd * x - 0x4973f715 * y
  r ^^^ (r >>> 16)

/-- The multiplier with which words enter the pool. -/
def entryMultiplier : UInt32 := 0x931e8875

/-- Hashes a list of words one after the other. -/
def hashAll (multiplier : UInt32) : UInt32 → List UInt32 → List UInt32 × UInt32
  | constant, [] => ([], constant)
  | constant, w :: rest =>
    let (v, constant) := hashWord multiplier constant w
    let (vs, constant) := hashAll multiplier constant rest
    (v :: vs, constant)

/-- The pairs of different places of the pool, in the order in which they are mixed. -/
def mixingOrder : List (Nat × Nat) :=
  [(0, 1), (0, 2), (0, 3), (1, 0), (1, 2), (1, 3), (2, 0), (2, 1), (2, 3), (3, 0), (3, 1), (3, 2)]

/-- Mixes the word of one place into another. -/
def mixStep (state : List UInt32 × UInt32) (places : Nat × Nat) : List UInt32 × UInt32 :=
  let (pool, constant) := state
  let (v, constant) := hashWord entryMultiplier constant (pool.getD places.1 0)
  (pool.modify places.2 fun w => mixWords w v, constant)

/-- The pool of four words that a seed makes. -/
def pool (seed : UInt64) : List UInt32 :=
  let words := (seedWords seed ++ [0, 0, 0, 0]).take 4
  (mixingOrder.foldl mixStep (hashAll entryMultiplier 0x43b0d7e5 words)).1

/-- Eight words out of the pool. -/
def stateWords (seed : UInt64) : List UInt32 :=
  let words := pool seed
  (hashAll 0x58f38ded 0x8b51f9dd (words ++ words)).1

/-! ## The generator -/

/-- The state of a generator, and the half of a word that has not been used yet. -/
structure State where
  state : BitVec 128
  increment : BitVec 128
  half : Option UInt32

def multiplier : BitVec 128 := 0x2360ed051fc65da44385df649fccf645

def advance (state increment : BitVec 128) : BitVec 128 := state * multiplier + increment

/-- Four words of 32 bits as one number, each pair with its low word first, the first pair high. -/
def joinWords : List UInt32 → BitVec 128
  | [a, b, c, d] =>
    BitVec.ofNat 128 (((b.toNat * 2 ^ 32 + a.toNat) * 2 ^ 32 + d.toNat) * 2 ^ 32 + c.toNat)
  | _ => 0

def ofSeed (seed : UInt64) : State :=
  let words := stateWords seed
  let increment := (joinWords (words.drop 4) <<< 1) ||| 1
  ⟨advance (advance 0 increment + joinWords (words.take 4)) increment, increment, none⟩

/-- The output of a state: its halves joined, and turned by its highest bits. -/
def output (state : BitVec 128) : BitVec 64 :=
  let word := (state >>> 64).setWidth 64 ^^^ state.setWidth 64
  word.rotateRight (state >>> 122).toNat

def next (g : State) : UInt32 × State :=
  match g.half with
  | some high => (high, { g with half := none })
  | none =>
    let state := advance g.state g.increment
    let word := (output state).toNat
    (UInt32.ofNat word, { g with state, half := some (UInt32.ofNat (word / 2 ^ 32)) })

def source : Source State := ⟨next⟩

end ClusterRounds.Random.Permuted
