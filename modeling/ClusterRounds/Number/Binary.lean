/-
  ClusterRounds.Number.Binary

  Binary floating point numbers as exact values. `Parts` says which real number
  (or which special value) a double stands for; `Format.round` rounds a quotient
  of naturals to the nearest number of a binary format, a tie going to the even
  significand. Everything is natural number arithmetic, so reading, printing and
  comparing numbers never goes through an inexact step.
-/

import ClusterRounds.Number.Power

namespace ClusterRounds.Number

/-- The nearest natural to `num / den`; a tie goes to the even neighbour. -/
def roundDiv (num den : Nat) : Nat :=
  let below := num / den
  let rest := num % den
  if 2 * rest < den then below
  else if den < 2 * rest then below + 1
  else if below % 2 = 0 then below else below + 1

/-- A binary format: the number of significand bits, and the exponents of the units of its
    smallest and of its largest numbers. -/
structure Format where
  precision : Nat
  leastExponent : Int
  greatestExponent : Int

def Format.half : Format := ⟨11, -24, 5⟩
def Format.single : Format := ⟨24, -149, 104⟩
def Format.double : Format := ⟨53, -1074, 971⟩

/-- What a floating point number stands for: `finite n m e` is `m · 2 ^ e`, negated if `n`. -/
inductive Parts where
  | undefined
  | infinite (negative : Bool)
  | finite (negative : Bool) (magnitude : Nat) (exponent : Int)
deriving DecidableEq, Inhabited

/-- `2 ^ e` as a quotient of naturals. -/
def powerOfTwo (e : Int) : Nat × Nat :=
  if 0 ≤ e then (2 ^ e.toNat, 1) else (1, 2 ^ (-e).toNat)

/-- `m · 2 ^ e` as a quotient of naturals with a positive denominator. -/
def ratioOf (m : Nat) (e : Int) : Nat × Nat :=
  let (num, den) := powerOfTwo e
  (m * num, den)

/-- The exponent `e` with `2 ^ e ≤ num / den < 2 ^ (e + 1)`, for positive `num` and `den`. -/
def floorLog2 (num den : Nat) : Int :=
  let guess : Int := (num.log2 : Int) - (den.log2 : Int)
  let (up, down) := powerOfTwo guess
  if den * up ≤ num * down then guess else guess - 1

/-- `num / den` rounded to the format, as a magnitude and an exponent; none if it overflows. -/
def Format.round (f : Format) (num den : Nat) : Option (Nat × Int) :=
  if num = 0 then some (0, f.leastExponent)
  else
    let exponent := max f.leastExponent (floorLog2 num den - (f.precision - 1 : Nat))
    let (up, down) := powerOfTwo exponent
    let magnitude := roundDiv (num * down) (den * up)
    let (magnitude, exponent) :=
      -- rounding up has reached the next power of two
      if magnitude = 2 ^ f.precision then (2 ^ (f.precision - 1), exponent + 1)
      else (magnitude, exponent)
    if f.greatestExponent < exponent then none else some (magnitude, exponent)

/-- `num / den` rounded to the format, an overflow giving infinity. -/
def Format.roundTo (f : Format) (negative : Bool) (num den : Nat) : Parts :=
  match f.round num den with
  | some (magnitude, exponent) => .finite negative magnitude exponent
  | none => .infinite negative

/-! ## Doubles -/

/-- How many exponents the bits of a format tell apart, those of zero and of the special values
    included. -/
def Format.exponentCodes (f : Format) : Nat := (f.greatestExponent - f.leastExponent + 3).toNat

/-- The value of a number of a format, read off its bits. -/
def Parts.ofBits (f : Format) (bits : Nat) : Parts :=
  let fractions := 2 ^ (f.precision - 1)
  let fraction := bits % fractions
  let code := bits / fractions % f.exponentCodes
  let negative := bits / fractions / f.exponentCodes % 2 = 1
  if code = f.exponentCodes - 1 then
    if fraction = 0 then .infinite negative else .undefined
  else if code = 0 then .finite negative fraction f.leastExponent
  else .finite negative (fractions + fraction) (f.leastExponent + code - 1)

def Parts.ofFloat (x : Float) : Parts := .ofBits .double x.toBits.toNat

/-- The double of a value that `Format.double` has. -/
def Parts.toFloat : Parts → Float
  | .undefined => Float.ofBits 0x7FF8000000000000
  | .infinite negative => Float.ofBits (if negative then 0xFFF0000000000000 else 0x7FF0000000000000)
  | .finite negative magnitude exponent =>
    let sign := if negative then 2 ^ 63 else 0
    let body :=
      -- the leading bit of a normal number is not stored
      if magnitude < 2 ^ 52 then magnitude
      else (exponent + 1075).toNat * 2 ^ 52 + (magnitude - 2 ^ 52)
    Float.ofBits (UInt64.ofNat (sign + body))

/-- The double nearest to `num / den`, an overflow giving infinity. -/
def floatOfRatio (negative : Bool) (num den : Nat) : Float :=
  (Format.double.roundTo negative num den).toFloat

/-- The double nearest to `num / den`; none if it overflows. -/
def floatOfRatio? (negative : Bool) (num den : Nat) : Option Float :=
  (Format.double.round num den).map fun (m, e) => (Parts.finite negative m e).toFloat

/-- The double nearest to an integer; none if it overflows. -/
def floatOfInt? (i : Int) : Option Float := floatOfRatio? (i < 0) i.natAbs 1

/-- The double nearest to an integer, an overflow giving infinity. -/
def floatOfInt (i : Int) : Float := floatOfRatio (i < 0) i.natAbs 1

/-- Rounding a double to another format and back. -/
def roundThrough (f : Format) (x : Float) : Float :=
  match Parts.ofFloat x with
  | .finite negative m e =>
    let (num, den) := ratioOf m e
    (match f.round num den with
      | none => Parts.infinite negative
      | some (m, e) =>
        let (num, den) := ratioOf m e
        Format.double.roundTo negative num den).toFloat
  | _ => x

/-! ## Exact comparison and truncation -/

/-- The order of `m · 2 ^ e` and a natural. -/
def compareMagnitude (m : Nat) (e : Int) (n : Nat) : Ordering :=
  let (num, den) := ratioOf m e
  compare num (n * den)

/-- The exact order of a value and an integer; none for the undefined value. -/
def Parts.compareInt : Parts → Int → Option Ordering
  | .undefined, _ => none
  | .infinite negative, _ => some (if negative then .lt else .gt)
  | .finite negative m e, i =>
    if negative && 0 < m then
      if 0 ≤ i then some .lt else some (compareMagnitude m e i.natAbs).swap
    else if i < 0 then some .gt
    else some (compareMagnitude m e i.natAbs)

/-- The integer part, rounded toward zero, of a finite value. -/
def Parts.truncate? : Parts → Option Int
  | .finite negative m e =>
    let (num, den) := ratioOf m e
    some (if negative then -((num / den : Nat) : Int) else (num / den : Nat))
  | _ => none

/-- The exact rational of a finite value. -/
def Parts.toRat? : Parts → Option Rat
  | .finite negative m e =>
    let (num, den) := ratioOf m e
    some (mkRat (if negative then -(num : Int) else num) den)
  | _ => none

/-! ## Rounding lemmas -/

theorem roundDiv_zero (den : Nat) (h : 0 < den) : roundDiv 0 den = 0 := by
  simp [roundDiv, h]

/-- A number on the grid is its own rounding. -/
theorem roundDiv_mul (n den : Nat) (h : 0 < den) : roundDiv (n * den) den = n := by
  simp [roundDiv, Nat.mul_div_cancel _ h, h]

/-- Rounding moves by at most half a unit. -/
theorem roundDiv_near (num den : Nat) (h : 0 < den) :
    2 * num ≤ 2 * (roundDiv num den * den) + den ∧ 2 * (roundDiv num den * den) ≤ 2 * num + den := by
  have hd := Nat.div_add_mod num den
  have hm := Nat.mod_lt num h
  have hc : den * (num / den) = num / den * den := Nat.mul_comm _ _
  unfold roundDiv
  simp only
  split
  · omega
  · split
    · rw [Nat.add_mul]; omega
    · split
      · omega
      · rw [Nat.add_mul]; omega

end ClusterRounds.Number
