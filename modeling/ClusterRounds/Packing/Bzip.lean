/-
  ClusterRounds.Packing.Bzip

  Octets packed block by block. Runs are shortened, the octets of a block are put into
  the order of its rotations, each is named by how long ago it came last, runs of the
  most recent one are numbered, and what is left is written in codes. A stream starts
  with its mark and ends with a checksum of the checksums of its blocks.
-/

import ClusterRounds.Packing.Checksum
import ClusterRounds.Packing.Code
import ClusterRounds.Packing.Rotation

namespace ClusterRounds.Packing.Bzip

/-- What is wrong with blocks that make no sense. -/
def broken : ContentFault := .brokenBlocks

/-- The mark in front of a block. -/
def blockMark : Nat := 0x314159265359

/-- The mark in front of the last checksum. -/
def endMark : Nat := 0x177245385090

def combined (sum block : UInt32) : UInt32 := ((sum <<< 1) ||| (sum >>> 31)) ^^^ block

/-! ## Runs -/

/-- Octets in which four equal ones are followed by the number of more of them: `run` is the number
    of equal octets so far, and `last` is one of them. -/
def longRuns : List UInt8 → UInt8 → Nat → ByteArray → ByteArray
  | [], _, _, out => out
  | c :: rest, last, run, out =>
    if run = 4 then
      longRuns rest 0 0 (c.toNat.fold (fun _ _ (out : ByteArray) => out.push last) out)
    else longRuns rest c (if run ≠ 0 && c = last then run + 1 else 1) (out.push c)

/-- The length of the run that a sequence starts with, up to a most. -/
def runLength (c : UInt8) : Nat → List UInt8 → Nat
  | most + 1, d :: rest => if d = c then runLength c most rest + 1 else 0
  | _, _ => 0

def shortRuns : Nat → List UInt8 → List UInt8
  | 0, _ => []
  | _, [] => []
  | fuel + 1, c :: rest =>
    -- a run of four is followed by how many octets more it has
    let more := runLength c 254 rest
    let others := shortRuns fuel (rest.drop more)
    if more < 3 then List.replicate (more + 1) c ++ others
    else List.replicate 4 c ++ UInt8.ofNat (more - 3) :: others

/-! ## Recent octets -/

/-- The names of octets: how many others came last since each of them. -/
def recencies : List UInt8 → List UInt8 → List Nat
  | _, [] => []
  | known, c :: rest =>
    let place := (known.idxOf? c).getD 0
    place :: recencies (toFront known place) rest

/-- A positive number by digits one and two, the least significant one first, as symbols zero and
    one. -/
def runSymbols : Nat → Nat → List Nat
  | 0, _ => []
  | fuel + 1, n =>
    if n = 0 then []
    else if n % 2 = 1 then 0 :: runSymbols fuel ((n - 1) / 2)
    else 1 :: runSymbols fuel ((n - 2) / 2)

/-- Symbols of names: runs of zero by their lengths, and all others one higher. -/
def symbolsOf : Nat → List Nat → List Nat
  | run, [] => runSymbols run run
  | run, 0 :: rest => symbolsOf (run + 1) rest
  | run, n :: rest => runSymbols run run ++ (n + 1) :: symbolsOf 0 rest

/-! ## Reading -/

/-- The octets that occur in a block. -/
def alphabet : Reading (List UInt8) := do
  let rows ← flags .high 16
  let used ← rows.mapM fun row => if row then flags .high 16 else return List.replicate 16 false
  return used.flatten.zipIdx.filterMap fun (isUsed, c) =>
    if isUsed then some (UInt8.ofNat c) else none

/-- A number by as many bits that are set. -/
def unary : Nat → Reading Nat
  | 0 => throw broken
  | most + 1 => do if ← bit .high then return (← unary most) + 1 else return 0

/-- Which table belongs to each group of symbols, the tables named by how recent they are. -/
def selectors (tables : Nat) : Nat → List Nat → Reading (List Nat)
  | 0, _ => return []
  | n + 1, known => do
    let place ← unary tables
    let known := toFront known place
    return known.headD 0 :: (← selectors tables n known)

def longest : Nat := 20

/-- A length that differs from the one before by steps up and down. -/
def steppedLength : Nat → Nat → Reading Nat
  | 0, _ => throw .endOfFile
  | fuel + 1, length => do
    if length < 1 || longest < length then throw broken
    if ← bit .high then
      if ← bit .high then steppedLength fuel (length - 1) else steppedLength fuel (length + 1)
    else return length

def codeLengths (bound : Nat) : Nat → Nat → Reading (List Nat)
  | 0, _ => return []
  | n + 1, length => do
    let length ← steppedLength bound length
    return length :: (← codeLengths bound n length)

def tables (symbols : Nat) : Nat → Reading (List Code)
  | 0 => return []
  | n + 1 => do
    let lengths ← codeLengths (← get).bound symbols (← number .high 5)
    return Code.ofLengths longest lengths :: (← tables symbols n)

/-- How many symbols are written with one table before the next one is chosen. -/
def groupSize : Nat := 50

/-- What is known while the symbols of a block are read. -/
structure Block where
  out : Array UInt8
  /-- The octets, the most recent one first. -/
  recent : List UInt8
  /-- The length of the run so far, and what its next digit counts. -/
  run : Nat
  weight : Nat

/-- The block with the run at its end written out. -/
def Block.closed (b : Block) (most : Nat) : Except ContentFault Block :=
  if most < b.out.size + b.run then .error broken
  else
    .ok { b with
      out := b.run.fold (fun _ _ (out : Array UInt8) => out.push (b.recent.headD 0)) b.out
      run := 0
      weight := 1 }

/-- The octets of a block, read by the chosen tables; `left` symbols are left for the first one. -/
def content (most last : Nat) : Nat → Nat → List Code → Block → Reading (Array UInt8)
  | 0, _, _, _ => throw .endOfFile
  | _, _, [], _ => throw broken
  | fuel + 1, 0, _ :: chosen, b => content most last fuel groupSize chosen b
  | fuel + 1, left + 1, code :: chosen, b => do
    let s ← code.symbol .high broken
    if s < 2 then
      if 2 * most < b.weight then throw broken
      content most last fuel left (code :: chosen)
        { b with run := b.run + (s + 1) * b.weight, weight := 2 * b.weight }
    else
      let b ← b.closed most
      if s = last then return b.out
      else
        let recent := toFront b.recent (s - 1)
        if most ≤ b.out.size then throw broken
        content most last fuel left (code :: chosen)
          { b with out := b.out.push (recent.headD 0), recent }

/-- The place of the first octet that a block changes when it is said to be randomised. Blocks that
    reach so far are not read: nothing has written them for a long time. -/
def firstChanged : Nat := 617

/-- The octets of a block whose mark has been read, and their checksum. -/
def block (most : Nat) : Reading (ByteArray × UInt32) := do
  let sum ← number .high 32
  let isRandomised ← bit .high
  let place ← number .high 24
  let used ← alphabet
  let tableCount ← number .high 3
  let chosenCount ← number .high 15
  if used.isEmpty || tableCount < 2 || 6 < tableCount || chosenCount = 0 then throw broken
  let chosen ← selectors tableCount chosenCount (List.range tableCount)
  let known := (← tables (used.length + 2) tableCount).toArray
  let cs ← content most (used.length + 1) (2 * (← get).bound) groupSize
    (chosen.map fun t => known.getD t []) ⟨#[], used, 0, 1⟩
  if cs.size ≤ place || (isRandomised && firstChanged < cs.size) then throw broken
  let out := longRuns (Rotation.restored cs place).data.toList 0 0 .empty
  if (highSum out).toNat ≠ sum then throw broken
  return (out, highSum out)

/-- The octets of the blocks up to the end of a stream. -/
def blocks (most : Nat) : Nat → UInt32 → ByteArray → Reading ByteArray
  | 0, _, _ => throw .endOfFile
  | fuel + 1, sum, out => do
    let mark ← number .high 48
    if mark = blockMark then
      let (here, blockSum) ← block most
      blocks most fuel (combined sum blockSum) (out ++ here)
    else if mark = endMark then
      if (← number .high 32) ≠ sum.toNat then throw broken
      align
      return out
    else throw broken

def stream : Reading ByteArray := do
  for mark in ("BZh".toUTF8).data do
    if (← octet) ≠ mark then throw broken
  let level := (← octet).toNat
  if level < 0x31 || 0x39 < level then throw broken
  blocks (100000 * (level - 0x30)) (← get).bound 0 .empty

/-- The octets of all streams. What follows the first one counts only if it is a stream. -/
def streams : Nat → Input → ByteArray → Except ContentFault ByteArray
  | 0, _, out => .ok out
  | fuel + 1, i, out =>
    if i.octets.size ≤ i.octetsRead then .ok out
    else
      match stream.run i with
      | .ok (more, i) => streams fuel i (out ++ more)
      | .error .brokenBlocks => .ok out
      | .error fault => .error fault

/-- What packed octets hold. -/
def unpack (cs : ByteArray) : Except ContentFault ByteArray := do
  let (out, i) ← stream.run (.ofOctets cs)
  streams cs.size i out

/-! ## Writing -/

/-- Bits of a number, the most significant one first. -/
def bitsOf (count n : Nat) : List Bool :=
  (List.range count).map fun i => n.testBit (count - 1 - i)

/-- Octets of bits, the last one filled up with zeros. -/
def octetsOf : Nat → List Bool → List UInt8
  | 0, _ => []
  | _, [] => []
  | fuel + 1, bits =>
    let eight := bits.take 8
    let n := (eight ++ List.replicate (8 - eight.length) false).foldl
      (fun n b => 2 * n + b.toNat) 0
    UInt8.ofNat n :: octetsOf fuel (bits.drop 8)

/-- The octets of a block that is written, before runs are shortened. -/
def writtenSize : Nat := 8000

/-- The lengths of a code in which all symbols are about equally long. -/
def evenLengths (symbols : Nat) : List Nat :=
  let bits := (symbols - 1).log2 + 1
  let long := 2 * (symbols - 2 ^ (bits - 1))
  List.replicate (symbols - long) (bits - 1) ++ List.replicate long bits

def steps (before length : Nat) : List Bool :=
  (List.replicate (length - before) [true, false]).flatten
    ++ (List.replicate (before - length) [true, true]).flatten ++ [false]

def table (lengths : List Nat) : List Bool :=
  bitsOf 5 (lengths.headD 0)
    ++ ((lengths.headD 0 :: lengths).zip lengths).flatMap fun (before, length) => steps before length

/-- The bits that tell which octets occur. -/
def alphabetBits (used : List Bool) : List Bool :=
  let rows := (List.range 16).map fun i => (used.drop (16 * i)).take 16
  rows.map (·.any id) ++ (rows.filter (·.any id)).flatten

def blockBits (cs : List UInt8) : List Bool :=
  let short := (shortRuns cs.length cs).toArray
  let (ends, place) := Rotation.transformed short
  let used := (List.range 256).map fun c => short.contains (UInt8.ofNat c)
  let known := (used.zipIdx.filter (·.1)).map fun u => UInt8.ofNat u.2
  let symbols := symbolsOf 0 (recencies known ends) ++ [known.length + 1]
  let lengths := evenLengths (known.length + 2)
  let code := Code.ofLengths longest lengths
  let codes := (List.range (known.length + 2)).toArray.map fun s =>
    (code.ofSymbol? s).elim [] fun (length, n) => bitsOf length n
  let groups := (symbols.length + groupSize - 1) / groupSize
  bitsOf 48 blockMark ++ bitsOf 32 (highSum ⟨cs.toArray⟩).toNat ++ [false] ++ bitsOf 24 place
    ++ alphabetBits used ++ bitsOf 3 2 ++ bitsOf 15 groups ++ List.replicate groups false
    ++ table lengths ++ table lengths ++ symbols.flatMap fun s => codes.getD s []

/-- Octets cut into blocks. -/
def cut : Nat → List UInt8 → List (List UInt8)
  | 0, _ => []
  | _, [] => []
  | fuel + 1, cs => cs.take writtenSize :: cut fuel (cs.drop writtenSize)

def pack (cs : ByteArray) : ByteArray :=
  let parts := cut cs.size cs.data.toList
  let sum := parts.foldl (fun sum part => combined sum (highSum ⟨part.toArray⟩)) 0
  let bits := parts.flatMap blockBits ++ bitsOf 48 endMark ++ bitsOf 32 sum.toNat
  "BZh1".toUTF8 ++ ⟨(octetsOf bits.length bits).toArray⟩

end ClusterRounds.Packing.Bzip
