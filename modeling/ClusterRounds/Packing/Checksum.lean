/-
  ClusterRounds.Packing.Checksum

  Checksums of octets: remainders of division by a polynomial over bits, of 32 or 64
  bits, with the least or with the most significant bit of each octet first.
-/

namespace ClusterRounds.Packing

/-- A remainder of 32 bits after eight more bits have been taken in, low bits first. -/
def lowStep (r : UInt32) (b : UInt8) : UInt32 :=
  Nat.fold 8 (fun _ _ r => if r &&& 1 = 1 then (r >>> 1) ^^^ 0xEDB88320 else r >>> 1)
    (r ^^^ b.toUInt32)

/-- The checksum of 32 bits, low bits first. -/
def lowSum (octets : ByteArray) : UInt32 := octets.foldl lowStep 0xFFFFFFFF ^^^ 0xFFFFFFFF

/-- A remainder of 32 bits after eight more bits have been taken in, high bits first. -/
def highStep (r : UInt32) (b : UInt8) : UInt32 :=
  Nat.fold 8 (fun _ _ r => if r >>> 31 = 1 then (r <<< 1) ^^^ 0x04C11DB7 else r <<< 1)
    (r ^^^ (b.toUInt32 <<< 24))

/-- The checksum of 32 bits, high bits first. -/
def highSum (octets : ByteArray) : UInt32 := octets.foldl highStep 0xFFFFFFFF ^^^ 0xFFFFFFFF

/-- A remainder of 64 bits after eight more bits have been taken in, low bits first. -/
def longStep (r : UInt64) (b : UInt8) : UInt64 :=
  Nat.fold 8 (fun _ _ r => if r &&& 1 = 1 then (r >>> 1) ^^^ 0xC96C5795D7870F42 else r >>> 1)
    (r ^^^ b.toUInt64)

def longSum (octets : ByteArray) : UInt64 :=
  octets.foldl longStep 0xFFFFFFFFFFFFFFFF ^^^ 0xFFFFFFFFFFFFFFFF

end ClusterRounds.Packing
