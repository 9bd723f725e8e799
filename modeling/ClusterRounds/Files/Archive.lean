/-
  ClusterRounds.Files.Archive

  The names of the members of an archive. A directory near the end lists the members; a
  record behind it, or two for a large archive, tells where it starts.
-/

import ClusterRounds.Packing.Input

namespace ClusterRounds.Files.Archive

open Packing

/-- What is wrong with an archive that makes no sense. -/
def broken : ContentFault := .notAnArchive

/-- The octets of a mark: two letters, and what it stands in front of. -/
def mark (a b : UInt8) : List UInt8 := [0x50, 0x4B, a, b]

/-- The marks that an archive can start with: that of a member, or that of the last record. -/
def starts : List (List UInt8) := [mark 3 4, mark 5 6]

/-- Does it look like an archive? -/
def isArchive (cs : List UInt8) : Bool := starts.any fun m => m.isPrefixOf cs

structure Directory where
  start : Nat
  size : Nat

/-! ## The last record -/

def recordSize : Nat := 22

def isAt (cs : ByteArray) (m : List UInt8) (place : Nat) : Bool :=
  (cs.extract place (place + m.length)).data.toList = m

/-- The last place of a mark among some places from one on. -/
def lastPlace? (cs : ByteArray) (m : List UInt8) (start : Nat) : Nat → Option Nat
  | 0 => none
  | count + 1 =>
    if isAt cs m (start + count) then some (start + count) else lastPlace? cs m start count

/-- A natural in some octets from a place on. -/
def wordAt (cs : ByteArray) (place count : Nat) : Nat :=
  ofOctets (cs.extract place (place + count)).data.toList

/-- Where the last record is: at the end, or in front of a comment there. -/
def recordPlace? (cs : ByteArray) : Option Nat :=
  let last := cs.size - recordSize
  if cs.size < recordSize then none
  else if isAt cs (mark 5 6) last && wordAt cs (cs.size - 2) 2 = 0 then some last
  else
    let start := last - 2 ^ 16
    match lastPlace? cs (mark 5 6) start (cs.size - start) with
    | some place => if place ≤ last then some place else none
    | none => none

/-- The sizes of the two records of a large archive that stand in front of the last one. -/
def locatorSize : Nat := 20
def largeSize : Nat := 56

/-- Where the directory starts that ends at a place. -/
def endingAt (place size : Nat) : Except ContentFault Directory :=
  if place < size then .error broken else .ok ⟨place - size, size⟩

def directory (cs : ByteArray) : Except ContentFault Directory := do
  let some record := recordPlace? cs | throw broken
  let plain := endingAt record (wordAt cs (record + 12) 4)
  let locator := record - locatorSize
  if record < locatorSize || !isAt cs (mark 6 7) locator then return ← plain
  if wordAt cs (locator + 4) 4 ≠ 0 || 1 < wordAt cs (locator + 16) 4 then throw broken
  if locator < largeSize then throw broken
  let large := locator - largeSize
  if !isAt cs (mark 6 6) large then return ← plain
  endingAt large (wordAt cs (large + 40) 8)

/-! ## Members -/

/-- The size of what stands in front of a member's name in the directory. -/
def entrySize : Nat := 46

def latestVersion : Nat := 63

/-- Do the extra fields of a member make sense? `wide` tells which of its numbers, of eight octets
    each, have to be among them. -/
def areSound (wide : Nat) : Nat → List UInt8 → Bool
  | 0, _ => true
  | fuel + 1, cs =>
    if cs.length < 4 then true
    else
      let size := ofOctets ((cs.drop 2).take 2)
      let isWide := ofOctets (cs.take 2) = 1
      if cs.length < size + 4 || (isWide && size < 8 * wide) then false
      else areSound (if isWide then 0 else wide) fuel (cs.drop (size + 4))

/-- A character of a name by its octet. Beyond ASCII there is one blank and nothing that could stand
    in a numeral. -/
def letter (b : UInt8) : Char :=
  if b < 0x80 then Char.ofNat b.toNat else if b = 0xFF then '\u00A0' else '▒'

/-- A name in letters, which may be in UTF-8. It ends at a null character. -/
def nameOf (isUtf8 : Bool) (cs : List UInt8) : Except ContentFault String := do
  let s ←
    if isUtf8 then (String.fromUTF8? ⟨cs.toArray⟩).elim (.error .notUtf8) .ok
    else pure (String.ofList (cs.map letter))
  return String.ofList (s.toList.takeWhile (· ≠ '\x00'))

def member : Reading String := do
  let head ← Packing.octets entrySize
  let field (place count : Nat) := ofOctets ((head.drop place).take count)
  if head.take 4 ≠ mark 1 2 then throw broken
  let i ← get
  let rest (place count : Nat) :=
    (i.octets.extract (i.octetsRead + place) (i.octetsRead + place + count)).data.toList
  let (nameSize, extraSize, commentSize) := (field 28 2, field 30 2, field 32 2)
  let name ← nameOf ((field 8 2).testBit 11) (rest 0 nameSize)
  if latestVersion < field 6 1 then throw .futureArchive
  let full := 2 ^ 32 - 1
  let wide := ([field 24 4, field 20 4, field 42 4].filter (· = full)).length
  if !areSound wide (extraSize + 1) (rest nameSize extraSize) then throw broken
  set { i with place := i.place + 8 * (nameSize + extraSize + commentSize) }
  return name

/-- The next members, up to the end of the directory. -/
def members : Nat → Reading (List String)
  | 0 => return []
  | fuel + 1 => do
    if ← atEnd then return []
    return (← member) :: (← members fuel)

def names (cs : ByteArray) : Except ContentFault (List String) := do
  let d ← directory cs
  let here := cs.extract d.start (d.start + d.size)
  ((members here.size).run' (.ofOctets here)).mapError fun fault =>
    if fault = .endOfFile then broken else fault

end ClusterRounds.Files.Archive
