/-
  ClusterRounds.Random.Twister

  The twisted generator of 624 words: seeded by a linear recurrence, renewed as a
  whole, and tempered word by word. It also gives doubles of the unit interval and
  normal deviates by the polar method, which come in pairs.
-/

import ClusterRounds.Random.Shuffle

namespace ClusterRounds.Random.Twister

/-- The number of words of a state. -/
def size : Nat := 624

/-- The state: its words, and how many of them have been used. -/
structure State where
  words : Array UInt32
  used : Nat

def seedWords (seed : UInt32) : Array UInt32 :=
  ((List.range (size - 1)).foldl (fun (acc : Array UInt32 × UInt32) i =>
    let (words, last) := acc
    let word := (1812433253 : UInt32) * (last ^^^ (last >>> 30)) + UInt32.ofNat (i + 1)
    (words.push word, word)) (#[seed], seed)).1

def ofSeed (seed : UInt32) : State := ⟨seedWords seed, size⟩

/-- The word that replaces one of the state, from its highest bit and the rest of the next one. -/
def twist (far high low : UInt32) : UInt32 :=
  let y := (high &&& 0x80000000) ||| (low &&& 0x7fffffff)
  far ^^^ (y >>> 1) ^^^ (if y &&& 1 = 1 then 0x9908b0df else 0)

def renew (words : Array UInt32) : Array UInt32 :=
  (List.range size).foldl (fun ws i =>
    ws.setIfInBounds i
      (twist (ws.getD ((i + 397) % size) 0) (ws.getD i 0) (ws.getD ((i + 1) % size) 0))) words

def temper (y : UInt32) : UInt32 :=
  let y := y ^^^ (y >>> 11)
  let y := y ^^^ ((y <<< 7) &&& 0x9d2c5680)
  let y := y ^^^ ((y <<< 15) &&& 0xefc60000)
  y ^^^ (y >>> 18)

def next (g : State) : UInt32 × State :=
  let g := if g.used < size then g else ⟨renew g.words, 0⟩
  (temper (g.words.getD g.used 0), { g with used := g.used + 1 })

def source : Source State := ⟨next⟩

/-- A double of the unit interval, made of 53 bits. -/
def uniform (g : State) : Float × State :=
  let (a, g) := next g
  let (b, g) := next g
  let bits := (a >>> 5).toNat * 67108864 + (b >>> 6).toNat
  (Float.ofNat bits / 9007199254740992, g)

/-! ## Normal deviates -/

/-- A generator together with the second deviate of a pair. -/
structure Normal where
  generator : State
  spare : Option Float

/-- Two coordinates of a point in the unit disc other than its centre, with the square of its
    radius, drawn until there is one. -/
def discPoint : Nat → State → (Float × Float × Float) × State
  | 0, g => ((0, 0, 1), g)
  | fuel + 1, g =>
    let (a, g) := uniform g
    let (b, g) := uniform g
    let x := 2 * a - 1
    let y := 2 * b - 1
    let r := x * x + y * y
    if r < 1 && r != 0 then ((x, y, r), g) else discPoint fuel g

def normal (n : Normal) : Float × Normal :=
  match n.spare with
  | some x => (x, { n with spare := none })
  | none =>
    let ((x, y, r), g) := discPoint patience n.generator
    let f := Float.sqrt (-2 * Float.log r / r)
    (f * y, ⟨g, some (f * x)⟩)

end ClusterRounds.Random.Twister
