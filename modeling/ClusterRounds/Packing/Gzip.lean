/-
  ClusterRounds.Packing.Gzip

  Packed octets in members, one behind the other: each has a header, a deflated stream,
  and the checksum and the size of what comes out of it. Zeros may stand between them.
-/

import ClusterRounds.Packing.Checksum
import ClusterRounds.Packing.Deflate

namespace ClusterRounds.Packing.Gzip

/-- The octets that a member starts with. -/
def mark : List UInt8 := [0x1F, 0x8B]

/-! ## Reading -/

/-- Reads up to a zero, or to the end. -/
def skipName : Nat → Reading Unit
  | 0 => return
  | fuel + 1 => do
    if ← atEnd then return
    if (← octet) ≠ 0 then skipName fuel

def header : Reading Unit := do
  let method ← octet
  let flags := (← octet).toNat
  discard (octets 6)
  if method ≠ 8 then throw .notPacked
  if flags.testBit 2 then discard (octets (← word 2))
  let bound := (← get).octets.size + 1
  if flags.testBit 3 then skipName bound
  if flags.testBit 4 then skipName bound
  if flags.testBit 1 then discard (octets 2)

def skipZeros : Nat → Reading Unit
  | 0 => return
  | fuel + 1 => do
    let i ← get
    if i.octets[i.octetsRead]? = some 0 then
      discard octet
      skipZeros fuel

/-- A member whose mark is still to come. -/
def member : Reading ByteArray := do
  let first ← octet
  if ← atEnd then throw .notPacked
  if [first, ← octet] ≠ mark then throw .notPacked
  header
  let out ← Deflate.unpacked
  let sum ← word 4
  let size ← word 4
  if sum ≠ (lowSum out).toNat || size ≠ out.size % 2 ^ 32 then throw .notPacked
  skipZeros ((← get).octets.size + 1)
  return out

def members : Nat → ByteArray → Reading ByteArray
  | 0, out => return out
  | fuel + 1, out => do
    if ← atEnd then return out
    members fuel (out ++ (← member))

/-- What packed octets hold. -/
def unpack (cs : ByteArray) : Except ContentFault ByteArray :=
  (members cs.size .empty).run' (.ofOctets cs)

/-! ## Writing -/

def pack (cs : ByteArray) : ByteArray :=
  let start := mark ++ [8, 0, 0, 0, 0, 0, 2, 255]
  let sums := Files.octets 4 (lowSum cs).toNat ++ Files.octets 4 cs.size
  ⟨(start ++ Deflate.packed cs.data.toList ++ sums).toArray⟩

end ClusterRounds.Packing.Gzip
