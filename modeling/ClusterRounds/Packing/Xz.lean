/-
  ClusterRounds.Packing.Xz

  Packed octets in a container: a header, blocks of chunks with their checksums, an index
  of the sizes of the blocks, and a footer that agrees with the header. A chunk holds
  octets as they are, or a stream of octets packed by chances that goes on where the last
  one stopped. A stream may also stand without a container.
-/

import ClusterRounds.Packing.Chain
import ClusterRounds.Packing.Checksum

namespace ClusterRounds.Packing.Xz

open Chain (broken)

/-! ## Chunks -/

/-- What chunks leave to the next ones. -/
structure Left where
  out : ByteArray
  /-- From where on copies can be made, once a chunk has said so. -/
  base : Option Nat
  /-- The decoder, once a chunk has said how to look at octets. Its octets are kept in `out`. -/
  decoder : Option Chain.Decoder

/-- The decoder of a chunk whose number is `control`, which tells how much of the last one is kept. -/
def decoderOf (control : Nat) (left : Left) : Reading Chain.Decoder := do
  if 0xC0 ≤ control then
    let some look := Chain.Look.ofOctet? (← octet) | throw broken
    return .fresh look left.out (left.base.getD 0)
  else
    let some d := left.decoder | throw broken
    if 0xA0 ≤ control then return .fresh d.look left.out (left.base.getD 0)
    else return { d with out := left.out, base := left.base.getD 0 }

def packedChunk (control : Nat) (left : Left) : Reading Left := do
  if control < 0xC0 && left.decoder.isNone then throw broken
  let size := control % 0x20 * 0x10000 + (← highWord 2) + 1
  let packedSize := (← highWord 2) + 1
  let d ← decoderOf control left
  let i ← get
  let limit := i.octetsRead + packedSize
  let ((), d) ← (do
    Chain.start
    Chain.steps (some (left.out.size + size)) false (Chain.bound i) : Chain.Decoding Unit).run
      { d with limit := some limit }
  if (← get).octetsRead ≠ limit then throw broken
  return { left with out := d.out, decoder := some { d with out := .empty } }

def plainChunk (left : Left) : Reading Left := do
  let cs ← octets ((← highWord 2) + 1)
  return { left with out := cs.foldl ByteArray.push left.out }

def chunks : Nat → Left → Reading ByteArray
  | 0, _ => throw .endOfFile
  | fuel + 1, left => do
    let control := (← octet).toNat
    if control = 0 then return left.out
    let left :=
      -- such a chunk forgets all octets before it
      if 0xE0 ≤ control || control = 1 then ⟨left.out, some left.out.size, none⟩ else left
    if left.base.isNone || (2 < control && control < 0x80) then throw broken
    if control < 0x80 then chunks fuel (← plainChunk left)
    else chunks fuel (← packedChunk control left)

/-! ## Blocks -/

/-- A natural in groups of seven bits, the least significant one first, without needless groups. -/
def sizeFrom : Nat → Bool → Reading Nat
  | 0, _ => throw broken
  | most + 1, isFirst => do
    let c := (← octet).toNat
    if c < 0x80 then
      -- a last group of zero could have been left out
      if c = 0 && !isFirst then throw broken
      return c
    else return c - 0x80 + 0x80 * (← sizeFrom most false)

def size : Reading Nat := sizeFrom 9 true

/-- Reads zeros up to a multiple of four octets behind a place. -/
def fill (start : Nat) : Reading Unit := do
  let count := (4 - ((← get).octetsRead - start) % 4) % 4
  if (← octets count).any (· ≠ 0) then throw broken

/-- Is the checksum of octets the given one? -/
def hasSum (cs : List UInt8) (sum : Nat) : Bool := (lowSum ⟨cs.toArray⟩).toNat = sum

def sizeIf (isGiven : Bool) : Reading (Option Nat) := do
  if isGiven then return some (← size) else return none

/-- The sizes of a block, packed and not, as far as its header gives them. The only way of packing is
    chunks. -/
def blockSizes : Reading (Option Nat × Option Nat) := do
  let flags := (← octet).toNat
  if flags % 0x40 ≠ 0 then throw broken
  let packedSize ← sizeIf (flags.testBit 6)
  let plainSize ← sizeIf (flags.testBit 7)
  if (← size) ≠ 0x21 || (← size) ≠ 1 || 40 < (← octet).toNat then throw broken
  let i ← get
  if (← octets (i.octets.size - i.octetsRead)).any (· ≠ 0) then throw broken
  return (packedSize, plainSize)

/-- How many octets a checksum of each kind has. -/
def sumSize (kind : Nat) : Nat := if kind = 0 then 0 else 4 * 2 ^ ((kind - 1) / 3)

/-- Is the checksum of a block the given one? Checksums of other kinds are not looked at. -/
def hasBlockSum (kind : Nat) (cs : ByteArray) (sum : Nat) : Bool :=
  if kind = 1 then (lowSum cs).toNat = sum
  else if kind = 4 then (longSum cs).toNat = sum
  else true

/-- A block whose first octet has been read, and its sizes: packed with its header and its checksum,
    and not packed. -/
def block (kind : Nat) (first : UInt8) : Reading (ByteArray × Nat × Nat) := do
  let start := (← get).octetsRead - 1
  let header := first :: (← octets (4 * first.toNat - 1))
  if !hasSum header (← word 4) then throw broken
  let some (packedSize, plainSize) :=
    (blockSizes.run' (.ofOctets ⟨(header.drop 1).toArray⟩)).toOption | throw broken
  let i ← get
  let out ← chunks i.bound ⟨.empty, none, none⟩
  let used := (← get).octetsRead - i.octetsRead
  if packedSize.any (· ≠ used) || plainSize.any (· ≠ out.size) then throw broken
  fill i.octetsRead
  let sum ← word (sumSize kind)
  if !hasBlockSum kind out sum then throw broken
  return (out, i.octetsRead - start + used + sumSize kind, out.size)

/-! ## Containers -/

/-- The octets that a container starts with. -/
def mark : List UInt8 := [0xFD, 0x37, 0x7A, 0x58, 0x5A, 0]

/-- The octets that a container ends with. -/
def endMark : List UInt8 := [0x59, 0x5A]

def sizes : Nat → Reading (List (Nat × Nat))
  | 0 => return []
  | n + 1 => do
    let packedSize ← size
    let plainSize ← size
    return (packedSize, plainSize) :: (← sizes n)

/-- Reads the index behind its first octet, which has to tell the sizes of the blocks, and gives its
    own size. -/
def index (known : List (Nat × Nat)) : Reading Nat := do
  let start := (← get).octetsRead - 1
  if (← size) ≠ known.length then throw broken
  if (← sizes known.length) ≠ known then throw broken
  fill start
  let i ← get
  if !hasSum (i.octets.extract start i.octetsRead).data.toList (← word 4) then throw broken
  return (← get).octetsRead - start

/-- The blocks and the index; `known` are the sizes of the blocks so far, the last one first. -/
def content (kind : Nat) : Nat → List (Nat × Nat) → ByteArray → Reading (ByteArray × Nat)
  | 0, _, _ => throw .endOfFile
  | fuel + 1, known, out => do
    let first ← octet
    if first = 0 then return (out, ← index known.reverse)
    else
      let (here, sizes) ← block kind first
      content kind fuel (sizes :: known) (out ++ here)

def container : Reading ByteArray := do
  let start ← octets 6
  let flags ← octets 2
  let sum ← word 4
  if start ≠ mark || !hasSum flags sum then throw broken
  let kind := (flags.getD 1 0).toNat
  if flags.headD 0 ≠ 0 || 15 < kind then throw broken
  let (out, indexSize) ← content kind (← get).bound [] .empty
  let sum ← word 4
  let ending ← octets 6
  let last ← octets 2
  if last ≠ endMark || !hasSum ending sum then throw broken
  if ending ≠ Files.octets 4 (indexSize / 4 - 1) ++ flags then throw broken
  return out

/-- The octets of a container, or of a stream without one. -/
def anyStream : Reading ByteArray := do
  let i ← get
  match i.octets[i.octetsRead]? with
  | some 0xFD => container
  | _ => Chain.stream

/-- The octets of all containers and streams. What follows the first one counts only if it is one. -/
def streams : Nat → Input → ByteArray → Except ContentFault ByteArray
  | 0, _, out => .ok out
  | fuel + 1, i, out =>
    if i.octets.size ≤ i.octetsRead then .ok out
    else
      match anyStream.run i with
      | .ok (more, i) => streams fuel i (out ++ more)
      -- what follows is no stream at all, and is left alone
      | .error .brokenChain => .ok out
      | .error fault => .error fault

/-- What packed octets hold. -/
def unpack (cs : ByteArray) : Except ContentFault ByteArray := do
  let (out, i) ← anyStream.run (.ofOctets cs)
  streams cs.size i out

/-! ## Writing -/

/-- A natural in groups of seven bits. -/
def sizeOctets : Nat → Nat → List UInt8
  | 0, _ => []
  | most + 1, n =>
    if n < 0x80 then [UInt8.ofNat n] else UInt8.ofNat (0x80 + n % 0x80) :: sizeOctets most (n / 0x80)

/-- Octets with their checksum. -/
def summed (cs : List UInt8) : List UInt8 := cs ++ Files.octets 4 (lowSum ⟨cs.toArray⟩).toNat

/-- Octets with zeros up to a multiple of four. -/
def filled (cs : List UInt8) : List UInt8 := cs ++ List.replicate ((4 - cs.length % 4) % 4) 0

/-- Chunks of octets as they are, the first one with the given number. -/
def plainChunks : Nat → UInt8 → List UInt8 → List UInt8
  | 0, _, _ => [0]
  | _, _, [] => [0]
  | fuel + 1, control, cs =>
    let here := cs.take 0x10000
    control :: (Files.octets 2 (here.length - 1)).reverse ++ here
      ++ plainChunks fuel 2 (cs.drop 0x10000)

/-- Octets as one container with one block. -/
def pack (cs : ByteArray) : ByteArray :=
  let flags := [0, 4]
  let header := summed [2, 0, 0x21, 1, 0x16, 0, 0, 0]
  let content := plainChunks (cs.size + 1) 1 cs.data.toList
  let sum := Files.octets 8 (longSum cs).toNat
  let sizes := sizeOctets 9 (header.length + content.length + 8) ++ sizeOctets 9 cs.size
  let index := summed (filled ([0, 1] ++ sizes))
  let ending := Files.octets 4 (index.length / 4 - 1) ++ flags
  let footer := Files.octets 4 (lowSum ⟨ending.toArray⟩).toNat ++ ending ++ endMark
  ⟨(mark ++ summed flags ++ header ++ filled content ++ sum ++ index ++ footer).toArray⟩

end ClusterRounds.Packing.Xz
