/-
  ClusterRounds.Packing.Chain

  Octets packed by chances. Each decision of the decoder, such as whether a single octet
  or a copy comes next, is one bit, read by how likely it has been in the same place so
  far; the more likely it is, the less room it takes. A number in a range is the only
  thing that is read: each bit cuts the range, and the side of the cut on which the
  number lies is the bit.
-/

import ClusterRounds.Packing.Deflate

namespace ClusterRounds.Packing.Chain

/-- What is wrong with a stream that makes no sense. -/
def broken : ContentFault := .brokenChain

/-- How a stream looks at octets: by how many high bits of the last octet, by how many low bits of
    the place, and by how many low bits of the place for everything but single octets. -/
structure Look where
  octetBits : Nat
  placeBits : Nat
  stepBits : Nat

def Look.ofOctet? (c : UInt8) : Option Look :=
  let look : Look := ⟨c.toNat % 9, c.toNat / 9 % 5, c.toNat / 45⟩
  if 4 < look.stepBits || 4 < look.octetBits + look.placeBits then none else some look

/-! ## Chances -/

/-- Where a chance is kept. -/
abbrev Place := Nat

/-- The chance of a zero, out of `2 ^ 11`, when nothing is known. -/
def even : UInt32 := 1024

namespace Place

def isCopy (history step : Nat) : Place := 16 * history + step
def isAgain (history : Nat) : Place := 192 + history
def isOlder (history : Nat) : Place := 204 + history
def isThird (history : Nat) : Place := 216 + history
def isFourth (history : Nat) : Place := 228 + history
def isLonger (history step : Nat) : Place := 240 + 16 * history + step
def slot (length : Nat) : Place := 432 + 64 * min length 3
def middle : Place := 688
def low : Place := 803
def copyLength : Place := 819
def againLength : Place := 1333
def single : Place := 1847

end Place

def chanceCount (look : Look) : Nat :=
  Place.single + 0x300 * 2 ^ (look.octetBits + look.placeBits)

/-! ## The decoder -/

/-- What is known while a stream is read. -/
structure Decoder where
  look : Look
  /-- How large the range is, and where the number lies in it. -/
  range : UInt32
  number : UInt32
  chances : Array UInt32
  /-- What came last: below seven a single octet, from seven on a copy. -/
  history : Nat
  /-- The last four distances, less one. -/
  distances : List Nat
  out : ByteArray
  /-- From where on copies can be made. -/
  base : Nat
  /-- Where the packed octets end, if it is known. -/
  limit : Option Nat

/-- A decoder that knows nothing but what it has written. -/
def Decoder.fresh (look : Look) (out : ByteArray) (base : Nat) : Decoder where
  look
  range := 0
  number := 0
  chances := Array.replicate (chanceCount look) even
  history := 0
  distances := [0, 0, 0, 0]
  out
  base
  limit := none

abbrev Decoding := StateT Decoder Reading

/-- The next octet, if it is before the end that is known. -/
def packedOctet : Decoding UInt8 := do
  let i ← (get : Reading Input)
  if !(← (atEnd : Reading Bool)) && (← get).limit = some i.octetsRead then throw broken
  (octet : Reading UInt8)

/-- Starts to read a number; the octet in front of it is zero. -/
def start : Decoding Unit := do
  if (← packedOctet) ≠ 0 then throw broken
  modify fun d => { d with range := 0xFFFFFFFF, number := 0 }
  for _ in [0, 1, 2, 3] do
    let c ← packedOctet
    modify fun d => { d with number := (d.number <<< 8) ||| c.toUInt32 }

/-- Makes a range that has become small larger. -/
def widen : Decoding Unit := do
  if (← get).range < 0x1000000 then
    let c ← packedOctet
    modify fun d =>
      { d with range := d.range <<< 8, number := (d.number <<< 8) ||| c.toUInt32 }

/-- The next bit by its chance, which the bit makes larger or smaller. -/
def bit (place : Place) : Decoding Bool := do
  widen
  let d ← get
  let chance := d.chances.getD place even
  -- the part of the range below the cut stands for a zero
  let cut := (d.range >>> 11) * chance
  if d.number < cut then
    set { d with
      range := cut
      chances := d.chances.setIfInBounds place (chance + ((2048 - chance) >>> 5)) }
    return false
  else
    set { d with
      range := d.range - cut
      number := d.number - cut
      chances := d.chances.setIfInBounds place (chance - (chance >>> 5)) }
    return true

/-- Bits that cut the range in half, behind those of a number. -/
def evenBits : Nat → Nat → Decoding Nat
  | 0, n => return n
  | count + 1, n => do
    widen
    let d ← get
    let half := d.range >>> 1
    if d.number < half then
      set { d with range := half }
      evenBits count (2 * n)
    else
      set { d with range := half, number := d.number - half }
      evenBits count (2 * n + 1)

/-- Bits by chances that depend on all bits before them, behind a leading one. -/
def tree (place : Place) : Nat → Nat → Decoding Nat
  | 0, n => return n
  | count + 1, n => do tree place count (2 * n + (← bit (place + n)).toNat)

/-- A number of some bits by chances that depend on all higher bits. -/
def treeNumber (place : Place) (count : Nat) : Decoding Nat :=
  return (← tree place count 1) - 2 ^ count

/-- A number of some bits by chances that depend on all lower bits; `n` stands for the bits so far,
    and the next one counts `weight`. -/
def lowTree (place : Place) : Nat → Nat → Nat → Decoding Nat
  | 0, _, _ => return 0
  | count + 1, n, weight => do
    let b := (← bit (place + n)).toNat
    return b * weight + (← lowTree place count (2 * n + b) (2 * weight))

/-! ## Single octets -/

/-- A single octet behind a copy: its chances depend on the octet that the last distance leads to, as
    long as the two have the same bits. -/
def likeTree (place : Place) (like : Nat) : Nat → Nat → Bool → Decoding Nat
  | 0, n, _ => return n
  | count + 1, n, isLike => do
    let there := (like.testBit count).toNat
    let b := (← bit (place + (if isLike then 0x100 * (1 + there) else 0) + n)).toNat
    likeTree place like count (2 * n + b) (isLike && b = there)

/-- The octet at a distance less one. -/
def Decoder.back (d : Decoder) (distance : Nat) : UInt8 :=
  d.out.get! (d.out.size - distance - 1)

def afterSingle (history : Nat) : Nat :=
  if history < 4 then 0 else if history < 10 then history - 3 else history - 6

def singleOctet (most : Option Nat) : Decoding Unit := do
  let d ← get
  -- the chances of an octet go by the octet before it and by its place
  let last := if d.out.size = d.base then 0 else (d.back 0).toNat
  let around := (d.out.size - d.base) % 2 ^ d.look.placeBits * 2 ^ d.look.octetBits
    + last / 2 ^ (8 - d.look.octetBits)
  let place := Place.single + 0x300 * around
  let n ←
    if d.history < 7 then tree place 8 1
    else likeTree place (d.back (d.distances.headD 0)).toNat 8 1 true
  if most = some d.out.size then throw broken
  modify fun d =>
    { d with out := d.out.push (UInt8.ofNat n), history := afterSingle d.history }

/-! ## Copies -/

def length (place : Place) (step : Nat) : Decoding Nat := do
  if !(← bit place) then return 2 + (← treeNumber (place + 2 + 8 * step) 3)
  else if !(← bit (place + 1)) then return 10 + (← treeNumber (place + 130 + 8 * step) 3)
  else return 18 + (← treeNumber (place + 258) 8)

/-- A distance less one; its chances depend on the length. -/
def distance (length : Nat) : Decoding Nat := do
  let slot ← treeNumber (Place.slot (length - 2)) 6
  -- small distances are their slots, middle ones have low bits by chances, and the far ones
  -- have even bits between the two
  if slot < 4 then return slot
  let bits := slot / 2 - 1
  let first := (2 + slot % 2) * 2 ^ bits
  if slot < 14 then return first + (← lowTree (Place.middle + first - slot) bits 1 1)
  else
    let high ← evenBits (bits - 4) 0
    return first + 16 * high + (← lowTree Place.low 4 1 1)

/-- Copies octets from a distance less one; the copy has to end where everything does, or before. -/
def copy (most : Option Nat) (distance length : Nat) : Decoding Unit := do
  let d ← get
  if d.out.size - d.base ≤ distance then throw broken
  if most.any (· < d.out.size + length) then throw broken
  set { d with out := Deflate.copied (distance + 1) length d.out }

def endDistance : Nat := 0xFFFFFFFF

/-- Makes a distance the latest one, in front of the others, and notes a copy. -/
def remember (distances : List Nat) (early late : Nat) : Decoding Unit :=
  modify fun d => { d with distances, history := if d.history < 7 then early else late }

/-- Reads the length of a copy from the first of the distances that are known. -/
def again (most : Option Nat) (step : Nat) (distances : List Nat) : Decoding Unit := do
  let n ← length .againLength step
  remember distances 8 11
  copy most (distances.headD 0) n

/-- Reads a copy, and tells whether it was the end instead. -/
def anyCopy (most : Option Nat) (step : Nat) : Decoding Bool := do
  let d ← get
  let known := d.distances
  if !(← bit (.isAgain d.history)) then
    let n ← length .copyLength step
    let far ← distance n
    if far = endDistance then return true
    remember (far :: known.take 3) 7 10
    copy most far n
  else
    if d.out.size = d.base then throw broken
    if !(← bit (.isOlder d.history)) then
      if !(← bit (.isLonger d.history step)) then
        remember known 9 11
        copy most (known.headD 0) 1
      else again most step known
    else if !(← bit (.isThird d.history)) then again most step (toFront known 1)
    else if !(← bit (.isFourth d.history)) then again most step (toFront known 2)
    else again most step (toFront known 3)
  return false

/-! ## Streams -/

/-- Reads octets and copies up to a size, if it is known, or to the end. A stream of known size may
    still have its end marked. Every octet or copy makes what is written longer, and takes a bit of
    the range; `fuel` is more than there can be. -/
def steps (most : Option Nat) (mayEnd : Bool) : Nat → Decoding Unit
  | 0 => throw .endOfFile
  | fuel + 1 => do
    let isFull := most = some (← get).out.size
    if isFull then
      widen
      -- a full stream can stop here, or mark its end
      if (← get).number = 0 then return
      if !mayEnd then throw broken
    let d ← get
    let step := (d.out.size - d.base) % 2 ^ d.look.stepBits
    if !(← bit (.isCopy d.history step)) then
      singleOctet most
      steps most mayEnd fuel
    else if ← anyCopy most step then
      -- the end was marked; it has to come where the size says, and with nothing left of the number
      if most.isSome && !isFull then throw broken
      widen
      if (← get).number ≠ 0 then throw broken
    else steps most mayEnd fuel

/-- The most octets or copies that packed octets can stand for: a bit takes at least a fiftieth of a
    bit of room. -/
def bound (i : Input) : Nat := 512 * (i.octets.size + 1)

/-- Could there be a stream with such a dictionary size? It has one leading bit, or two of them. -/
def isDictionarySize (size : Nat) : Bool :=
  size = 0 || size = 0xFFFFFFFF || size = 2 ^ size.log2
    || (size.log2 ≠ 0 && size = 2 ^ size.log2 + 2 ^ (size.log2 - 1))

/-- The octets of a stream with a short header: the look, the size of the dictionary, and the number
    of octets, if it is known. -/
def stream : Reading ByteArray := do
  let some look := Look.ofOctet? (← octet) | throw broken
  if !isDictionarySize (← word 4) then throw broken
  let size ← word 8
  let known := if size = 2 ^ 64 - 1 then none else some size
  if known.any (2 ^ 38 ≤ ·) then throw broken
  let bound := bound (← get)
  let ((), d) ← (do start; steps known true bound : Decoding Unit).run (.fresh look .empty 0)
  return d.out

end ClusterRounds.Packing.Chain
