/-
  ClusterRounds.Files.Octets

  Naturals as octets. The first octet is the least significant one; `ofOctets` is the
  value of any number of octets, `octets` the lowest ones of a value.
-/

import ClusterRounds.Number.Power

namespace ClusterRounds.Files

def ofOctets : List UInt8 → Nat
  | [] => 0
  | b :: rest => b.toNat + 256 * ofOctets rest

/-- The lowest `count` octets of a value. -/
def octets : (count : Nat) → Nat → List UInt8
  | 0, _ => []
  | count + 1, n => UInt8.ofNat (n % 256) :: octets count (n / 256)

@[simp] theorem length_octets : ∀ count n, (octets count n).length = count
  | 0, _ => rfl
  | count + 1, n => by simp [octets, length_octets count]

/-- What is read back are the lowest octets. -/
theorem ofOctets_octets : ∀ count n, ofOctets (octets count n) = n % 256 ^ count
  | 0, n => by simp [octets, ofOctets, Nat.mod_one]
  | count + 1, n => by
    have h : (UInt8.ofNat (n % 256)).toNat = n % 256 := by simp
    rw [octets, ofOctets, ofOctets_octets count, h, Nat.pow_succ, Nat.mul_comm (256 ^ count) 256,
      Nat.mod_mul]

end ClusterRounds.Files
