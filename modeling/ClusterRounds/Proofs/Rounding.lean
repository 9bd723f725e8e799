/-
  ClusterRounds.Proofs.Rounding

  Which quotients are rounded to a double. `IsRounding` says of a natural that it is the nearest
  one, and even if there are two, and `roundDiv` is the only such (`isRounding_roundDiv`,
  `IsRounding.unique`). The exponent of a quotient is found by a guess that is at most one too
  large (`floorLog_spec`). Together they say that every quotient in the interval of a double,
  which is `RoundsTo`, is rounded to it (`round_eq`).
-/

import ClusterRounds.Number.Decimal
import ClusterRounds.Proofs.Doubles
import Mathlib.Algebra.Order.Field.Power
import Mathlib.Algebra.Order.Field.Rat
import Mathlib.Tactic.Linarith
import Mathlib.Tactic.NormNum
import Mathlib.Tactic.Positivity
import Mathlib.Tactic.Ring

namespace ClusterRounds.Number

/-! ## Powers as quotients -/

/-- `b ^ e` as a quotient of naturals. -/
def powerOf (b : ℕ) (e : ℤ) : ℕ × ℕ := if 0 ≤ e then (b ^ e.toNat, 1) else (1, b ^ (-e).toNat)

section Powers

variable {b : ℕ} (hb : 1 < b) (e : ℤ) {num den : ℕ}

include hb

theorem powerOf_pos : 0 < (powerOf b e).1 ∧ 0 < (powerOf b e).2 := by
  unfold powerOf
  split
  · exact ⟨Nat.pow_pos (by omega), Nat.one_pos⟩
  · exact ⟨Nat.one_pos, Nat.pow_pos (by omega)⟩

omit hb in
theorem cast_powerOf : ((powerOf b e).1 : ℚ) / (powerOf b e).2 = (b : ℚ) ^ e := by
  unfold powerOf
  split
  · obtain ⟨n, rfl⟩ := Int.eq_ofNat_of_zero_le ‹0 ≤ e›
    simp
  · obtain ⟨n, hn⟩ := Int.eq_ofNat_of_zero_le (show 0 ≤ -e by omega)
    obtain rfl : e = -n := by omega
    simp

/-- A quotient against a power. -/
theorem mul_powerOf_le (hden : 0 < den) :
    den * (powerOf b e).1 ≤ num * (powerOf b e).2 ↔ (b : ℚ) ^ e ≤ num / den := by
  obtain ⟨-, hdown⟩ := powerOf_pos hb e
  rw [← cast_powerOf, div_le_div_iff₀ (by exact_mod_cast hdown) (by exact_mod_cast hden),
    Nat.mul_comm den]
  exact_mod_cast Iff.rfl

omit hb in
/-- A quotient in units of a power. -/
theorem cast_scaled : ((num * (powerOf b e).2 : ℕ) : ℚ) / (den * (powerOf b e).1 : ℕ)
    = num / den / (b : ℚ) ^ e := by
  rw [← cast_powerOf, div_div_div_eq]
  push_cast
  rfl

/-- The exponent of a quotient, from the exponents of its two sides. -/
theorem floorLog_spec {a c : ℕ} (hnum : b ^ a ≤ num ∧ num < b ^ (a + 1))
    (hden : b ^ c ≤ den ∧ den < b ^ (c + 1)) {e : ℤ}
    (he : e = if den * (powerOf b (a - c)).1 ≤ num * (powerOf b (a - c)).2 then (a : ℤ) - c
      else a - c - 1) :
    (b : ℚ) ^ e ≤ num / den ∧ (num : ℚ) / den < (b : ℚ) ^ (e + 1) := by
  have hpos : 0 < den := Nat.lt_of_lt_of_le (Nat.pow_pos (by omega)) hden.1
  have hb' : (0 : ℚ) < b := by exact_mod_cast (by omega : 0 < b)
  have hden' : (0 : ℚ) < den := by exact_mod_cast hpos
  -- the guess is too large by one at most, and never too small
  have hlow : (b : ℚ) ^ ((a : ℤ) - c - 1) ≤ num / den := by
    have hexponent : (a : ℤ) - c - 1 = a - (c + 1 : ℕ) := by omega
    rw [hexponent, zpow_sub₀ hb'.ne', zpow_natCast, zpow_natCast,
      div_le_div_iff₀ (by positivity) hden']
    exact_mod_cast Nat.mul_le_mul hnum.1 hden.2.le
  have hhigh : (num : ℚ) / den < (b : ℚ) ^ ((a : ℤ) - c + 1) := by
    have hexponent : (a : ℤ) - c + 1 = (a + 1 : ℕ) - c := by omega
    rw [hexponent, zpow_sub₀ hb'.ne', zpow_natCast, zpow_natCast,
      div_lt_div_iff₀ hden' (by positivity)]
    exact_mod_cast Nat.mul_lt_mul_of_lt_of_le hnum.2 hden.1 hpos
  split at he
  · rename_i hguess
    rw [he]
    exact ⟨(mul_powerOf_le hb _ hpos).1 hguess, hhigh⟩
  · rename_i hguess
    rw [he, sub_add_cancel]
    exact ⟨hlow, lt_of_not_ge (mt (mul_powerOf_le hb _ hpos).2 hguess)⟩

end Powers

theorem floorLog2_spec {num den : ℕ} (hnum : num ≠ 0) (hden : den ≠ 0) :
    (2 : ℚ) ^ floorLog2 num den ≤ num / den ∧ (num : ℚ) / den < 2 ^ (floorLog2 num den + 1) := by
  have hspec := floorLog_spec (b := 2) (by decide)
    ⟨Nat.log2_self_le hnum, Nat.lt_log2_self⟩ ⟨Nat.log2_self_le hden, Nat.lt_log2_self⟩
    (e := floorLog2 num den) rfl
  exact_mod_cast hspec

/-! ## The nearest natural -/

/-- The natural is the nearest one, and the even one of two. -/
structure IsRounding (n : ℕ) (q : ℚ) : Prop where
  low : (n : ℚ) - 1 / 2 ≤ q
  high : q ≤ n + 1 / 2
  odd : n % 2 = 1 → (n : ℚ) - 1 / 2 < q ∧ q < n + 1 / 2

theorem IsRounding.not_lt {m n : ℕ} {q : ℚ} (hm : IsRounding m q) (hn : IsRounding n q) :
    ¬ m < n := by
  intro hlt
  have hlow := hn.low
  have hhigh := hm.high
  -- of two neighbours one is odd, and takes no quotient that is between them
  obtain rfl | hmore : n = m + 1 ∨ m + 2 ≤ n := by omega
  · push_cast at hlow
    rcases Nat.mod_two_eq_zero_or_one m with hmod | hmod
    · have hodd := (hn.odd (by omega)).1
      push_cast at hodd
      linarith
    · have hodd := (hm.odd hmod).2
      linarith
  · have hmore : (m : ℚ) + 2 ≤ n := by exact_mod_cast hmore
    linarith

theorem IsRounding.unique {m n : ℕ} {q : ℚ} (hm : IsRounding m q) (hn : IsRounding n q) : m = n :=
  Nat.le_antisymm (Nat.not_lt.1 (hn.not_lt hm)) (Nat.not_lt.1 (hm.not_lt hn))

theorem roundDiv_odd {num den : ℕ} (hden : 0 < den) (hodd : roundDiv num den % 2 = 1) :
    2 * num < 2 * (roundDiv num den * den) + den
      ∧ 2 * (roundDiv num den * den) < 2 * num + den := by
  have hd := Nat.div_add_mod num den
  have hm := Nat.mod_lt num hden
  have hc : den * (num / den) = num / den * den := Nat.mul_comm ..
  unfold roundDiv at hodd ⊢
  dsimp only at hodd ⊢
  split at hodd
  · rw [if_pos ‹_›]
    omega
  · rw [if_neg ‹_›]
    split at hodd
    · rw [if_pos ‹_›, Nat.add_mul]
      omega
    · rw [if_neg ‹_›]
      split at hodd <;> omega

theorem isRounding_roundDiv (num : ℕ) {den : ℕ} (hden : 0 < den) :
    IsRounding (roundDiv num den) (num / den) := by
  have hden' : (0 : ℚ) < den := by exact_mod_cast hden
  obtain ⟨hlow, hhigh⟩ := roundDiv_near num den hden
  have hlow : 2 * (num : ℚ) ≤ 2 * (roundDiv num den * den) + den := by exact_mod_cast hlow
  have hhigh : 2 * ((roundDiv num den : ℚ) * den) ≤ 2 * num + den := by exact_mod_cast hhigh
  refine ⟨?_, ?_, fun hodd => ?_⟩
  · rw [le_div_iff₀ hden']
    linarith
  · rw [div_le_iff₀ hden']
    linarith
  · obtain ⟨hlow, hhigh⟩ := roundDiv_odd hden hodd
    have hlow : 2 * (num : ℚ) < 2 * (roundDiv num den * den) + den := by exact_mod_cast hlow
    have hhigh : 2 * ((roundDiv num den : ℚ) * den) < 2 * num + den := by exact_mod_cast hhigh
    rw [lt_div_iff₀ hden', div_lt_iff₀ hden']
    constructor <;> linarith

/-- The rounding of a quotient that is counted in units of a power. -/
theorem isRounding_scaled {b : ℕ} (hb : 1 < b) (num : ℕ) {den : ℕ} (hden : 0 < den) (e : ℤ) :
    IsRounding (roundDiv (num * (powerOf b e).2) (den * (powerOf b e).1)) (num / den / b ^ e) := by
  rw [← cast_scaled]
  exact isRounding_roundDiv _ (Nat.mul_pos hden (powerOf_pos hb e).1)

/-! ## Doubles -/

/-- The quotients that are rounded to a double: those nearer to it than to any other, and those
    between two if its magnitude is even. Below a power of two the doubles are twice as dense. -/
structure RoundsTo (m : ℕ) (e : ℤ) (q : ℚ) : Prop where
  low : (m - 1 / 2 : ℚ) * 2 ^ e ≤ q
  high : q ≤ (m + 1 / 2 : ℚ) * 2 ^ e
  odd : m % 2 = 1 → (m - 1 / 2 : ℚ) * 2 ^ e < q ∧ q < (m + 1 / 2 : ℚ) * 2 ^ e
  power : m = 2 ^ 52 → -1074 < e → (m - 1 / 4 : ℚ) * 2 ^ e ≤ q

/-- What is nearer than half a unit is rounded, and a quarter of one where the doubles are
    denser. -/
theorem RoundsTo.of_near {m : ℕ} {e : ℤ} {q : ℚ} (h : |q - m * 2 ^ e| < 2 ^ e / 2)
    (hpower : m = 2 ^ 52 → |q - m * 2 ^ e| ≤ 2 ^ e / 4) : RoundsTo m e q := by
  obtain ⟨hlow, hhigh⟩ := abs_lt.1 h
  have hlow : (m - 1 / 2 : ℚ) * 2 ^ e < q := by linarith
  have hhigh : q < (m + 1 / 2 : ℚ) * 2 ^ e := by linarith
  refine ⟨hlow.le, hhigh.le, fun _ => ⟨hlow, hhigh⟩, fun hm _ => ?_⟩
  have hnear := (abs_le.1 (hpower hm)).1
  linarith

section Round

variable {m : ℕ} {e : ℤ} {num den : ℕ}

theorem two_zpow_lt {i j : ℤ} : (2 : ℚ) ^ i < 2 ^ j ↔ i < j :=
  zpow_lt_zpow_iff_right₀ one_lt_two

theorem two_zpow_add (n : ℕ) (e : ℤ) : (2 : ℚ) ^ (n + e) = 2 ^ n * 2 ^ e := by
  rw [zpow_add₀ two_ne_zero, zpow_natCast]

theorem RoundsTo.eq_zero (h : InRange m e) (hq : RoundsTo m e 0) : m = 0 ∧ e = -1074 := by
  have hunit : (0 : ℚ) < 2 ^ e := zpow_pos two_pos e
  have hm : (m : ℚ) < 1 := by
    by_contra hm
    have hlow := hq.low
    nlinarith
  have hm : m = 0 := by
    have : m < 1 := by exact_mod_cast hm
    omega
  exact ⟨hm, h.normal.resolve_left (by omega)⟩

/-- The exponent of what is rounded to a double is that of the double, or one below, in front of a
    power of two. -/
theorem RoundsTo.exponent_eq (h : InRange m e) {q : ℚ} (hq : RoundsTo m e q) {f : ℤ}
    (hf : (2 : ℚ) ^ f ≤ q ∧ q < 2 ^ (f + 1)) :
    max (-1074) (f - 52) = e ∨
      (m = 2 ^ 52 ∧ -1074 < e ∧ max (-1074) (f - 52) = e - 1 ∧ q < 2 ^ 52 * 2 ^ e) := by
  have hunit : (0 : ℚ) < 2 ^ e := zpow_pos two_pos e
  have hm : (m : ℚ) ≤ 2 ^ 53 - 1 := by
    have hlt := h.lt
    have : m + 1 ≤ 2 ^ 53 := hlt
    have : ((m + 1 : ℕ) : ℚ) ≤ (2 ^ 53 : ℕ) := by exact_mod_cast this
    push_cast at this
    linarith
  -- no double of the exponent reaches the next power of two
  have hhigh : f < 53 + e := by
    rw [← two_zpow_lt, show (53 : ℤ) = (53 : ℕ) from rfl, two_zpow_add]
    have := hq.high
    nlinarith [hf.1]
  rcases h.normal with hnormal | rfl
  · by_cases hbelow : q < 2 ^ 52 * 2 ^ e
    · -- only the least magnitude reaches below its power of two
      have hm' : m = 2 ^ 52 := by
        have hlt : (m : ℚ) < 2 ^ 52 + 1 := by
          by_contra hge
          have := hq.low
          nlinarith
        have hlt : m < 2 ^ 52 + 1 := by exact_mod_cast hlt
        omega
      rcases Int.lt_or_eq_of_le h.least with hleast | rfl
      · have hpower := hq.power hm' hleast
        rw [hm'] at hpower
        push_cast at hpower
        have hlow : 51 + e < f + 1 := by
          rw [← two_zpow_lt, show (51 : ℤ) = (51 : ℕ) from rfl, two_zpow_add]
          linarith [hf.2]
        have hhigh : f < 52 + e := by
          rw [← two_zpow_lt, show (52 : ℤ) = (52 : ℕ) from rfl, two_zpow_add]
          exact lt_of_le_of_lt hf.1 hbelow
        exact .inr ⟨hm', hleast, by omega, hbelow⟩
      · left
        omega
    · left
      have hlow : 52 + e < f + 1 := by
        rw [← two_zpow_lt, show (52 : ℤ) = (52 : ℕ) from rfl, two_zpow_add]
        exact lt_of_le_of_lt (not_lt.1 hbelow) hf.2
      have := h.least
      omega
  · left
    omega

theorem RoundsTo.isRounding {q : ℚ} (hq : RoundsTo m e q) : IsRounding m (q / 2 ^ e) := by
  have hunit : (0 : ℚ) < 2 ^ e := zpow_pos two_pos e
  refine ⟨?_, ?_, fun hodd => ?_⟩
  · rw [le_div_iff₀ hunit]
    exact hq.low
  · rw [div_le_iff₀ hunit]
    exact hq.high
  · rw [lt_div_iff₀ hunit, div_lt_iff₀ hunit]
    exact hq.odd hodd

/-- In front of a power of two a quotient is rounded up to it. -/
theorem RoundsTo.isRounding_power {q : ℚ} (hq : RoundsTo (2 ^ 52) e q) (he : -1074 < e)
    (hbelow : q < 2 ^ 52 * 2 ^ e) : IsRounding (2 ^ 53) (q / 2 ^ (e - 1)) := by
  have hunit : (0 : ℚ) < 2 ^ e := zpow_pos two_pos e
  have hlow := hq.power rfl he
  have hhalf : (2 : ℚ) ^ (e - 1) = 2 ^ e / 2 := by
    rw [zpow_sub₀ two_ne_zero, zpow_one]
  rw [hhalf]
  push_cast at hlow
  refine ⟨?_, ?_, fun hodd => absurd hodd (by decide)⟩
  · rw [le_div_iff₀ (half_pos hunit)]
    push_cast
    linarith
  · rw [div_le_iff₀ (half_pos hunit)]
    push_cast
    linarith

theorem round_of_ne {E : ℤ} {r : ℕ} (hnum : num ≠ 0) (hE : max (-1074) (floorLog2 num den - 52) = E)
    (hr : roundDiv (num * (powerOfTwo E).2) (den * (powerOfTwo E).1) = r) :
    Format.double.round num den =
      if 971 < (if r = 2 ^ 53 then (2 ^ 52, E + 1) else (r, E)).2 then none
      else some (if r = 2 ^ 53 then (2 ^ 52, E + 1) else (r, E)) := by
  subst hE hr
  rw [Format.round, if_neg hnum]
  rfl

/-- Every quotient in the interval of a double is rounded to it. -/
theorem round_eq (h : InRange m e) (hden : 0 < den) (hq : RoundsTo m e (num / den)) :
    Format.double.round num den = some (m, e) := by
  by_cases hnum : num = 0
  · rw [hnum, Nat.cast_zero, zero_div] at hq
    obtain ⟨rfl, rfl⟩ := hq.eq_zero h
    rw [hnum]
    rfl
  · have hgreatest := h.greatest
    rcases hq.exponent_eq h (floorLog2_spec hnum hden.ne') with hE | ⟨rfl, hleast, hE, hbelow⟩
    · have hr := (isRounding_scaled one_lt_two num hden e).unique hq.isRounding
      have hlt := h.lt
      rw [round_of_ne hnum hE hr, if_neg hlt.ne, if_neg (by omega)]
    · have hr := (isRounding_scaled one_lt_two num hden (e - 1)).unique
        (hq.isRounding_power hleast hbelow)
      rw [round_of_ne hnum hE hr, if_pos rfl, Int.sub_add_cancel, if_neg (by omega)]

/-- What is rounded to the parts of a double is rounded to the double. -/
theorem floatOfRatio_eq {x : Float} {negative : Bool} (hx : Parts.ofFloat x = .finite negative m e)
    (hden : 0 < den) (hq : RoundsTo m e (num / den)) : floatOfRatio negative num den = x := by
  rw [floatOfRatio, Format.roundTo, round_eq (inRange_of_ofFloat hx) hden hq]
  dsimp only
  rw [← hx, Parts.toFloat_ofFloat]

end Round

end ClusterRounds.Number
