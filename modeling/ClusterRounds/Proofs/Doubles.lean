/-
  ClusterRounds.Proofs.Doubles

  Doubles and their parts. What `Parts` says of a double is read off the bits of its sign, its
  exponent and its mantissa. So the double can be told from its parts (`Parts.toFloat_ofFloat`),
  and is undefined, infinite or finite as they are (`Parts.status_ofFloat`). The parts of a
  finite one are in the range of the format (`InRange`).
-/

import ClusterRounds.Number.Binary
import Mathlib

namespace ClusterRounds.Number

open Float.Model (Format.binary64)
open Float.Model.UnpackedFloat

/-! ## The bits of a double -/

section Bits

variable {b : BitVec 64}

theorem toNat_unpackMantissa (b : BitVec 64) :
    (@unpackMantissa .binary64 b).toNat = b.toNat % 2 ^ 52 := by
  simp [unpackMantissa]

theorem toNat_unpackExponent (b : BitVec 64) :
    (@unpackExponent .binary64 b).toNat = b.toNat / 2 ^ 52 % 2048 := by
  simp [unpackExponent, Nat.shiftRight_eq_div_pow]

theorem unpackExponent_eq_last :
    @unpackExponent .binary64 b = -1#11 ↔ b.toNat / 2 ^ 52 % 2048 = 2047 := by
  rw [← toNat_unpackExponent, ← BitVec.toNat_inj]
  rfl

theorem unpackMantissa_eq_zero :
    @unpackMantissa .binary64 b = 0#52 ↔ b.toNat % 2 ^ 52 = 0 := by
  rw [← toNat_unpackMantissa, ← BitVec.toNat_inj]
  rfl

end Bits

/-! ## The parts of a double -/

/-- What is read off the bits of a double. -/
theorem Parts.ofBits_double (n : Nat) : Parts.ofBits .double n =
    if n / 2 ^ 52 % 2048 = 2047 then
      if n % 2 ^ 52 = 0 then .infinite (n / 2 ^ 63 % 2 = 1) else .undefined
    else if n / 2 ^ 52 % 2048 = 0 then .finite (n / 2 ^ 63 % 2 = 1) (n % 2 ^ 52) (-1074)
    else .finite (n / 2 ^ 63 % 2 = 1) (2 ^ 52 + n % 2 ^ 52) ((n / 2 ^ 52 % 2048 : Nat) - 1075) := by
  have hsign : n / 2 ^ 52 / 2048 = n / 2 ^ 63 := Nat.div_div_eq_div_mul ..
  have hexponent : (-1074 : Int) + (n / 2 ^ 52 % 2048 : Nat) - 1
      = (n / 2 ^ 52 % 2048 : Nat) - 1075 := by omega
  rw [← hsign, ← hexponent]
  rfl

/-- The magnitudes and exponents of finite doubles. -/
structure InRange (m : Nat) (e : Int) : Prop where
  lt : m < 2 ^ 53
  least : -1074 ≤ e
  greatest : e ≤ 971
  /-- Only the smallest numbers have leading zeros. -/
  normal : 2 ^ 52 ≤ m ∨ e = -1074

section Parts

variable {x : Float} {negative : Bool} {m : Nat} {e : Int}

theorem inRange_of_ofFloat (h : Parts.ofFloat x = .finite negative m e) : InRange m e := by
  unfold Parts.ofFloat at h
  rw [Parts.ofBits_double] at h
  split at h
  · split at h <;> cases h
  · split at h
    · cases h
      exact ⟨by omega, by omega, by omega, by omega⟩
    · cases h
      exact ⟨by omega, by omega, by omega, by omega⟩

/-- There is one undefined double. -/
theorem toNat_toBits_of_undefined (h : Parts.ofFloat x = .undefined) :
    x.toBits.toNat = 0x7FF8000000000000 := by
  obtain ⟨⟨bits, valid⟩⟩ := x
  have h : Parts.ofBits .double bits.toBitVec.toNat = .undefined := h
  rw [Parts.ofBits_double] at h
  split at h
  · split at h
    · cases h
    · rename_i hcode hfraction
      have hnan := valid.eq_packedNaN (unpackExponent_eq_last.2 hcode)
        (mt unpackMantissa_eq_zero.1 hfraction)
      exact congrArg BitVec.toNat hnan
  · split at h <;> cases h

theorem toNat_toBits_of_infinite (h : Parts.ofFloat x = .infinite negative) :
    x.toBits.toNat = if negative then 0xFFF0000000000000 else 0x7FF0000000000000 := by
  have hx := x.toBits.toNat_lt
  unfold Parts.ofFloat at h
  rw [Parts.ofBits_double] at h
  split at h
  · split at h
    · cases h
      simp only [decide_eq_true_eq]
      split <;> omega
    · cases h
  · split at h <;> cases h

theorem toNat_toBits_of_finite (h : Parts.ofFloat x = .finite negative m e) :
    x.toBits.toNat = (if negative then 2 ^ 63 else 0)
      + if m < 2 ^ 52 then m else (e + 1075).toNat * 2 ^ 52 + (m - 2 ^ 52) := by
  have hx := x.toBits.toNat_lt
  unfold Parts.ofFloat at h
  rw [Parts.ofBits_double] at h
  split at h
  · split at h <;> cases h
  · split at h
    · cases h
      rw [if_pos (Nat.mod_lt _ (Nat.two_pow_pos 52))]
      simp only [decide_eq_true_eq]
      split <;> omega
    · cases h
      rw [if_neg (Nat.not_lt.2 (Nat.le_add_right ..))]
      simp only [decide_eq_true_eq]
      split <;> omega

/-- A double can be told from its parts. -/
theorem Parts.toFloat_ofFloat (x : Float) : (Parts.ofFloat x).toFloat = x := by
  have hbits {n : Nat} (h : x.toBits.toNat = n) : Float.ofBits (UInt64.ofNat n) = x := by
    rw [← h, UInt64.ofNat_toNat, Float.ofBits_toBits]
  cases hparts : Parts.ofFloat x with
  | undefined => exact hbits (toNat_toBits_of_undefined hparts)
  | infinite negative =>
    cases negative with
    | false => exact hbits (toNat_toBits_of_infinite hparts)
    | true => exact hbits (toNat_toBits_of_infinite hparts)
  | finite negative m e => exact hbits (toNat_toBits_of_finite hparts)

/-- A double is undefined, infinite or finite as its parts are. -/
theorem Parts.status_ofFloat (x : Float) :
    match Parts.ofFloat x with
    | .undefined => x.isNaN = true ∧ x.isFinite = false
    | .infinite _ => x.isNaN = false ∧ x.isFinite = false
    | .finite .. => x.isNaN = false ∧ x.isFinite = true := by
  obtain ⟨⟨bits, valid⟩⟩ := x
  show match Parts.ofBits .double bits.toBitVec.toNat with
    | .undefined => (unpack .binary64 bits.toBitVec).isNaN = true ∧
      (unpack .binary64 bits.toBitVec).isFinite = false
    | .infinite _ => (unpack .binary64 bits.toBitVec).isNaN = false ∧
      (unpack .binary64 bits.toBitVec).isFinite = false
    | .finite .. => (unpack .binary64 bits.toBitVec).isNaN = false ∧
      (unpack .binary64 bits.toBitVec).isFinite = true
  rw [Parts.ofBits_double]
  fun_cases unpack
  next hcode hzero =>
    rw [if_pos (unpackExponent_eq_last.1 hcode), if_pos (unpackMantissa_eq_zero.1 hzero)]
    exact ⟨rfl, rfl⟩
  next hcode hzero =>
    rw [if_pos (unpackExponent_eq_last.1 hcode), if_neg (mt unpackMantissa_eq_zero.2 hzero)]
    exact ⟨rfl, rfl⟩
  -- what is left is finite, with an exponent of its own or not
  all_goals
    rename ¬ _ = -1#_ => hcode
    rw [if_neg (mt unpackExponent_eq_last.2 hcode)]
    by_cases hzero : bits.toBitVec.toNat / 2 ^ 52 % 2048 = 0
    · rw [if_pos hzero]
      exact ⟨rfl, rfl⟩
    · rw [if_neg hzero]
      exact ⟨rfl, rfl⟩

end Parts

end ClusterRounds.Number
