/-
  ClusterRounds.Packing.Deflate

  Octets packed as blocks of copies: a block holds octets as they are, or codes for single
  octets and for copies of earlier ones, given by a length and a distance. The codes are
  fixed, or described in front of the block by codes of their own.
-/

import ClusterRounds.Packing.Code

namespace ClusterRounds.Packing.Deflate

/-- What is wrong with a stream that makes no sense. -/
def broken : ContentFault := .brokenStream

/-! ## Copies -/

/-- The octets with a copy of as many as given, from a distance back; copies may overlap. -/
def copied (distance : Nat) : Nat → ByteArray → ByteArray
  | 0, out => out
  | n + 1, out => copied distance n (out.push (out.get! (out.size - distance)))

/-- The least length of a symbol, and how many bits are added to it. -/
def lengthOf? (symbol : Nat) : Option (Nat × Nat) :=
  if symbol < 257 || 285 < symbol then none
  else if symbol < 265 then some (symbol - 254, 0)
  else if symbol = 285 then some (258, 0)
  else
    let bits := (symbol - 261) / 4
    some ((4 + (symbol - 265) % 4) * 2 ^ bits + 3, bits)

/-- The least distance of a symbol, and how many bits are added to it. -/
def distanceOf? (symbol : Nat) : Option (Nat × Nat) :=
  if 29 < symbol then none
  else if symbol < 4 then some (symbol + 1, 0)
  else
    let bits := symbol / 2 - 1
    some ((2 + symbol % 2) * 2 ^ bits + 1, bits)

/-- A number of at least some size, with bits that are added to it. -/
def extended (known : Option (Nat × Nat)) : Reading Nat :=
  match known with
  | some (least, bits) => return least + (← number .low bits)
  | none => throw broken

def longest : Nat := 15

/-- The octets of a block of codes behind those before it. Every symbol takes a bit at least. -/
def coded (literals distances : Code) : Nat → ByteArray → Reading ByteArray
  | 0, _ => throw .endOfFile
  | fuel + 1, out => do
    let s ← literals.symbol .low broken
    if s < 256 then coded literals distances fuel (out.push (UInt8.ofNat s))
    else if s = 256 then return out
    else
      let length ← extended (lengthOf? s)
      let distance ← extended (distanceOf? (← distances.symbol .low broken))
      if out.size < distance then throw broken
      coded literals distances fuel (copied distance length out)

/-! ## Blocks -/

def fixedLiterals : List Nat :=
  List.replicate 144 8 ++ List.replicate 112 9 ++ List.replicate 24 7 ++ List.replicate 8 8

/-- The order in which the lengths of the describing codes are given. -/
def lengthOrder : List Nat := [16, 17, 18, 0, 8, 7, 9, 6, 10, 5, 11, 4, 12, 3, 13, 2, 14, 1, 15]

/-- Lengths in codes of their own, of which some repeat the last length or zero, until there are as
    many as needed. -/
def lengths (code : Code) (needed : Nat) : Nat → List Nat → Reading (List Nat)
  | 0, _ => throw .endOfFile
  | fuel + 1, known => do
    if needed ≤ known.length then
      if known.length = needed then return known.reverse else throw broken
    let s ← code.symbol .low broken
    if s < 16 then lengths code needed fuel (s :: known)
    else
      -- a repetition of the last length, or a short or a long run of zeros
      let (value, least, bits) :=
        if s = 16 then (known.head?, 3, 2) else if s = 17 then (some 0, 3, 3) else (some 0, 11, 7)
      let some value := value | throw broken
      let count := least + (← number .low bits)
      lengths code needed fuel (List.replicate count value ++ known)

/-- Can the code be used? It has to be complete, unless it has a single code of one bit or none. -/
def isUsable (code : Code) : Bool :=
  code.isComplete || (code.isPossible && (code.drop 1).all List.isEmpty)

/-- The codes that are described in front of a block. -/
def described : Reading (Code × Code) := do
  let literalCount := (← number .low 5) + 257
  let distanceCount := (← number .low 5) + 1
  let orderCount := (← number .low 4) + 4
  if 286 < literalCount || 30 < distanceCount then throw broken
  let given ← (lengthOrder.take orderCount).mapM fun place => return (place, ← number .low 3)
  let code := Code.ofLengths 7 ((List.range 19).map fun place => (given.lookup place).getD 0)
  if !(code.isComplete || code.all List.isEmpty) then throw broken
  let all ← lengths code (literalCount + distanceCount) (literalCount + distanceCount + 1) []
  let literals := Code.ofLengths longest (all.take literalCount)
  let distances := Code.ofLengths longest (all.drop literalCount)
  -- a block without an end, or a code with gaps, cannot be read
  if all[256]? = some 0 || !isUsable literals || !isUsable distances then throw broken
  return (literals, distances)

/-- The octets of a block that holds them as they are. -/
def stored (out : ByteArray) : Reading ByteArray := do
  align
  let size ← word 2
  let check ← word 2
  if size + check ≠ 0xFFFF then throw broken
  return (← octets size).foldl ByteArray.push out

/-- The octets of all blocks up to the last one. -/
def blocks : Nat → ByteArray → Reading ByteArray
  | 0, _ => throw .endOfFile
  | fuel + 1, out => do
    let isLast ← bit .low
    let bound := (← get).bound
    let out ←
      match ← number .low 2 with
      | 0 => stored out
      | 1 =>
        coded (.ofLengths longest fixedLiterals) (.ofLengths longest (List.replicate 30 5)) bound out
      | 2 => do
        let (literals, distances) ← described
        coded literals distances bound out
      | _ => throw broken
    if isLast then return out else blocks fuel out

def unpacked : Reading ByteArray := do blocks (← get).bound .empty

/-! ## Packing -/

/-- The most octets of a block that holds them as they are. -/
def largestBlock : Nat := 0xFFFF

/-- Blocks that hold octets as they are. -/
def storedBlocks : Nat → List UInt8 → List UInt8
  | 0, _ => []
  | more + 1, cs =>
    let here := cs.take largestBlock
    [if more = 0 then 1 else 0] ++ Files.octets 2 here.length
      ++ Files.octets 2 (0xFFFF - here.length) ++ here ++ storedBlocks more (cs.drop largestBlock)

/-- A stream of octets as they are. -/
def packed (cs : List UInt8) : List UInt8 := storedBlocks (cs.length / largestBlock + 1) cs

end ClusterRounds.Packing.Deflate
