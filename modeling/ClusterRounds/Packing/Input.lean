/-
  ClusterRounds.Packing.Input

  Reading packed octets, whole or bit by bit. The bits of an octet come with the least
  significant one first or with the most significant one first; numbers are made of bits
  in the same order. What is read moves on, and reading past the end fails.
-/

import ClusterRounds.Failure.Basic
import ClusterRounds.Files.Octets

namespace ClusterRounds.Packing

/-- Octets, and how many bits of them have been read. -/
structure Input where
  octets : ByteArray
  place : Nat

abbrev Reading := StateT Input (Except ContentFault)

namespace Input

def ofOctets (octets : ByteArray) : Input := ⟨octets, 0⟩

/-- The number of octets that have been read, a part of one counting as one. -/
def octetsRead (i : Input) : Nat := (i.place + 7) / 8

/-- How many steps reading can take that moves on by a bit at least. -/
def bound (i : Input) : Nat := 8 * i.octets.size + 1 - i.place

end Input

/-! ## Octets -/

def atEnd : Reading Bool := do
  let i ← get
  return i.octets.size ≤ i.octetsRead

/-- Moves on to the start of an octet. -/
def align : Reading Unit := modify fun i => { i with place := 8 * i.octetsRead }

/-- The next octet; a part of one that has been started is left out. -/
def octet : Reading UInt8 := do
  let i ← get
  if h : i.octetsRead < i.octets.size then
    set { i with place := 8 * (i.octetsRead + 1) }
    return i.octets[i.octetsRead]
  else throw .endOfFile

def octets : Nat → Reading (List UInt8)
  | 0 => return []
  | n + 1 => return (← octet) :: (← octets n)

/-- A natural in some octets, the least significant one first. -/
def word (count : Nat) : Reading Nat := return Files.ofOctets (← octets count)

/-- A natural in some octets, the most significant one first. -/
def highWord (count : Nat) : Reading Nat := return Files.ofOctets (← octets count).reverse

/-! ## Bits -/

/-- Which bit of an octet comes first. -/
inductive Order where
  | low
  | high
deriving DecidableEq, Repr

def bit (order : Order) : Reading Bool := do
  let i ← get
  if h : i.place / 8 < i.octets.size then
    set { i with place := i.place + 1 }
    let shift := match order with
      | .low => i.place % 8
      | .high => 7 - i.place % 8
    return i.octets[i.place / 8].toNat.testBit shift
  else throw .endOfFile

def number (order : Order) : Nat → Reading Nat
  | 0 => return 0
  | n + 1 => do
    let b := (← bit order).toNat
    let others ← number order n
    return match order with
      | .low => b + 2 * others
      | .high => b * 2 ^ n + others

def flags (order : Order) : Nat → Reading (List Bool)
  | 0 => return []
  | n + 1 => return (← bit order) :: (← flags order n)

end ClusterRounds.Packing
