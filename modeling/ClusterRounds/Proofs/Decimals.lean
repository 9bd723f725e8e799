/-
  ClusterRounds.Proofs.Decimals

  Decimals that are rounded back to the double they were made of. A decimal of seventeen or more
  digits is nearer to the double than half the way to the next one (`roundsTo_decimalOf`). One of
  fewer digits is only taken if it is in the interval of the double, so it is rounded back too
  (`roundsTo_shortestDecimal`); zeros at its end can be dropped, as its value goes by the place of
  its first digit.
-/

import ClusterRounds.Proofs.Rounding

namespace ClusterRounds.Number

/-! ## Digits -/

theorem length_toDigits {n k : ℕ} (hlow : 10 ^ k ≤ n) (hhigh : n < 10 ^ (k + 1)) :
    (Nat.toDigits 10 n).length = k + 1 := by
  have hle := (Nat.length_toDigits_le_iff (by decide) (Nat.succ_pos k)).2 hhigh
  cases k with
  | zero => exact Nat.le_antisymm hle Nat.length_toDigits_pos
  | succ k =>
    have hgt := mt (Nat.length_toDigits_le_iff (n := n) (b := 10) (by decide) (Nat.succ_pos k)).1
      (Nat.not_lt.2 hlow)
    omega

/-- A natural has one digit more than the power of ten that it reaches. -/
theorem exists_length_toDigits {n : ℕ} (hn : 0 < n) :
    ∃ k, (Nat.toDigits 10 n).length = k + 1 ∧ 10 ^ k ≤ n ∧ n < 10 ^ (k + 1) := by
  obtain ⟨k, hk⟩ := Nat.exists_eq_add_one.2 (Nat.length_toDigits_pos (b := 10) (n := n))
  refine ⟨k, hk, ?_, (Nat.length_toDigits_le_iff (by decide) (Nat.succ_pos k)).1 hk.le⟩
  cases k with
  | zero => exact hn
  | succ k =>
    have hgt := mt (Nat.length_toDigits_le_iff (n := n) (b := 10) (by decide) (Nat.succ_pos k)).2
      (by omega)
    exact Nat.not_lt.1 hgt

theorem floorLog10_spec {num den : ℕ} (hnum : 0 < num) (hden : 0 < den) :
    (10 : ℚ) ^ floorLog10 num den ≤ num / den ∧
      (num : ℚ) / den < 10 ^ (floorLog10 num den + 1) := by
  obtain ⟨a, ha, hnum⟩ := exists_length_toDigits hnum
  obtain ⟨c, hc, hden⟩ := exists_length_toDigits hden
  have hguess : ((Nat.toDigits 10 num).length : ℤ) - (Nat.toDigits 10 den).length = a - c := by
    omega
  have hspec := floorLog_spec (b := 10) (by decide) hnum hden (e := floorLog10 num den)
    (by rw [floorLog10, hguess]; rfl)
  exact_mod_cast hspec

/-! ## The value of a decimal -/

/-- The first digit stands for its multiple of the power of ten that the exponent names. -/
def Decimal.value (d : Decimal) : ℚ :=
  d.digits * 10 ^ (d.exponent + 1 - (Nat.toDigits 10 d.digits).length)

theorem Decimal.value_eq {d : Decimal} {k : ℕ} (h : 10 ^ k ≤ d.digits ∧ d.digits < 10 ^ (k + 1)) :
    d.value = d.digits * 10 ^ (d.exponent - k) := by
  rw [value, length_toDigits h.1 h.2]
  congr 2
  omega

theorem ten_zpow_add (i j : ℤ) : (10 : ℚ) ^ (i + j) = 10 ^ i * 10 ^ j := zpow_add₀ (by norm_num) i j

/-- A zero at the end of a decimal does not count. -/
theorem Decimal.value_dropZeros (fuel n : ℕ) (e : ℤ) :
    Decimal.value ⟨dropZeros fuel n, e⟩ = Decimal.value ⟨n, e⟩ ∧
      (0 < n → 0 < dropZeros fuel n) := by
  induction fuel generalizing n with
  | zero => exact ⟨rfl, id⟩
  | succ fuel ih =>
    rw [dropZeros]
    split
    · rename_i hzero
      simp only [Bool.and_eq_true, decide_eq_true_eq] at hzero
      obtain ⟨hvalue, hpos⟩ := ih (n / 10)
      refine ⟨hvalue.trans ?_, fun _ => hpos (by omega)⟩
      have hdigits : (Nat.toDigits 10 n).length = (Nat.toDigits 10 (n / 10)).length + 1 := by
        rw [Nat.toDigits_of_base_le (by decide) (by omega), List.length_append]
        rfl
      have hn : (n : ℚ) = (n / 10 : ℕ) * 10 := by
        exact_mod_cast (by omega : n = n / 10 * 10)
      simp only [value, hdigits, hn]
      push_cast
      rw [show e + 1 - (Nat.toDigits 10 (n / 10)).length
        = 1 + (e + 1 - ((Nat.toDigits 10 (n / 10)).length + 1)) by omega, ten_zpow_add, zpow_one,
        mul_assoc]
    · exact ⟨rfl, id⟩

theorem Decimal.value_one (e : ℤ) : Decimal.value ⟨1, e⟩ = 10 ^ e := by
  simp [value, Nat.toDigits_of_lt_base]

/-! ## The range of doubles -/

theorem two_zpow_lt_ten : (2 : ℚ) ^ (1200 : ℤ) < 10 ^ (400 : ℤ) := by
  rw [show (1200 : ℤ) = 3 * 400 from rfl, zpow_mul]
  exact zpow_lt_zpow_left₀ (by norm_num) (by norm_num) (by norm_num)

/-- What is rounded to a double has at most 400 digits in front of its point. -/
theorem RoundsTo.lt_ten_zpow {m : ℕ} {e : ℤ} {q : ℚ} (h : InRange m e) (hq : RoundsTo m e q) :
    q < 10 ^ (400 : ℤ) := by
  have hunit : (0 : ℚ) < 2 ^ e := zpow_pos two_pos e
  have hm : (m : ℚ) ≤ 2 ^ 53 - 1 := by
    rw [le_sub_iff_add_le]
    exact_mod_cast h.lt
  have hgreatest : (2 : ℚ) ^ e ≤ 2 ^ (971 : ℤ) := zpow_le_zpow_right₀ one_le_two h.greatest
  calc q ≤ (m + 1 / 2) * 2 ^ e := hq.high
    _ ≤ 2 ^ 53 * 2 ^ e := by
      gcongr
      linarith
    _ ≤ 2 ^ 53 * 2 ^ (971 : ℤ) := by gcongr
    _ = 2 ^ (1024 : ℤ) := (two_zpow_add 53 971).symm
    _ < 2 ^ (1200 : ℤ) := two_zpow_lt.2 (by decide)
    _ < 10 ^ (400 : ℤ) := two_zpow_lt_ten

theorem RoundsTo.zero (e : ℤ) : RoundsTo 0 e 0 := by
  have hunit : (0 : ℚ) < 2 ^ e := zpow_pos two_pos e
  refine ⟨?_, ?_, fun hodd => absurd hodd (by decide), fun hpower => absurd hpower (by decide)⟩
  · push_cast
    linarith
  · push_cast
    linarith

/-- What has 400 zeros behind its point is rounded as zero is. -/
theorem RoundsTo.zero_of_small {m : ℕ} {e : ℤ} {q : ℚ} (h : InRange m e) (hq : RoundsTo m e q)
    (hsmall : q < 10 ^ (-400 : ℤ)) : RoundsTo m e 0 := by
  have hunit : (0 : ℚ) < 2 ^ e := zpow_pos two_pos e
  have hleast : (2 : ℚ) ^ (-1074 : ℤ) ≤ 2 ^ e := zpow_le_zpow_right₀ one_le_two h.least
  have htiny : (10 : ℚ) ^ (-400 : ℤ) < 2 ^ (-1074 : ℤ) / 2 := by
    calc (10 : ℚ) ^ (-400 : ℤ) < 2 ^ (-1200 : ℤ) := by
          rw [zpow_neg, zpow_neg]
          exact inv_strictAnti₀ (zpow_pos two_pos _) two_zpow_lt_ten
      _ < 2 ^ (-1074 - 1 : ℤ) := two_zpow_lt.2 (by decide)
      _ = 2 ^ (-1074 : ℤ) / 2 := by rw [zpow_sub₀ two_ne_zero, zpow_one]
  have hm : (m : ℚ) < 1 := by
    by_contra hm
    have hlow := hq.low
    nlinarith
  obtain rfl : m = 0 := by
    have : m < 1 := by exact_mod_cast hm
    omega
  exact .zero e

/-! ## A given number of digits -/

theorem ratioOf_pos (m : ℕ) (e : ℤ) : 0 < (ratioOf m e).2 := (powerOf_pos (b := 2) (by decide) e).2

theorem cast_ratioOf (m : ℕ) (e : ℤ) : ((ratioOf m e).1 : ℚ) / (ratioOf m e).2 = m * 2 ^ e := by
  have hpower := cast_powerOf (b := 2) e
  show ((m * (powerOf 2 e).1 : ℕ) : ℚ) / (powerOf 2 e).2 = _
  rw [Nat.cast_mul, mul_div_assoc, hpower]
  rfl

section Digits

variable {places num den : ℕ} (hnum : 0 < num) (hden : 0 < den)

include hnum hden

/-- The quotient, in units of its last digit. -/
theorem scaled_bounds (places : ℕ) :
    (10 : ℚ) ^ places ≤ num / den / 10 ^ (floorLog10 num den - places) ∧
      (num : ℚ) / den / 10 ^ (floorLog10 num den - places) < 10 ^ (places + 1) := by
  obtain ⟨hlow, hhigh⟩ := floorLog10_spec hnum hden
  have hunit : (0 : ℚ) < 10 ^ (floorLog10 num den - places) := zpow_pos (by norm_num) _
  rw [le_div_iff₀ hunit, div_lt_iff₀ hunit, ← zpow_natCast, ← zpow_natCast, ← ten_zpow_add,
    ← ten_zpow_add]
  constructor
  · rwa [show (places : ℤ) + (floorLog10 num den - places) = floorLog10 num den by omega]
  · rwa [show ((places + 1 : ℕ) : ℤ) + (floorLog10 num den - places) = floorLog10 num den + 1 by
      omega]

/-- So many digits stand in front of the point, in units of the last one. -/
theorem floor_scaled (places : ℕ) {unit : ℕ × ℕ}
    (hunit : unit = powerOfTen (floorLog10 num den - places)) :
    10 ^ places ≤ num * unit.2 / (den * unit.1) ∧
      num * unit.2 / (den * unit.1) < 10 ^ (places + 1) := by
  have hpos := Nat.mul_pos hden (powerOf_pos (b := 10) (by decide)
    (floorLog10 num den - places)).1
  have hbounds := scaled_bounds hnum hden places
  rw [← Nat.cast_ofNat (R := ℚ) (n := 10), ← cast_scaled, le_div_iff₀ (by exact_mod_cast hpos),
    div_lt_iff₀ (by exact_mod_cast hpos)] at hbounds
  rw [show powerOf 10 (floorLog10 num den - places) = unit from hunit.symm] at hbounds hpos
  rw [Nat.le_div_iff_mul_le hpos, Nat.div_lt_iff_lt_mul hpos]
  exact_mod_cast hbounds

/-- The nearest natural, and the units between it and the quotient. -/
theorem roundDiv_scaled (places : ℕ) {unit : ℕ × ℕ}
    (hunit : unit = powerOfTen (floorLog10 num den - places)) :
    10 ^ places ≤ roundDiv (num * unit.2) (den * unit.1) ∧
    roundDiv (num * unit.2) (den * unit.1) ≤ 10 ^ (places + 1) ∧
    |(roundDiv (num * unit.2) (den * unit.1) : ℚ) * 10 ^ (floorLog10 num den - places) - num / den|
      ≤ num / den / 10 ^ places / 2 := by
  have hpos : (0 : ℚ) < 10 ^ (floorLog10 num den - places) := zpow_pos (by norm_num) _
  have hrounding := isRounding_scaled (b := 10) (by decide) num hden (floorLog10 num den - places)
  obtain ⟨hlow, hhigh⟩ := scaled_bounds hnum hden places
  rw [show powerOf 10 (floorLog10 num den - places) = unit from hunit.symm] at hrounding
  push_cast at hrounding
  generalize roundDiv (num * unit.2) (den * unit.1) = r at hrounding ⊢
  have hr := hrounding.low
  have hr' := hrounding.high
  refine ⟨?_, ?_, ?_⟩
  · have hlt : (10 : ℚ) ^ places < r + 1 := by linarith
    have hlt : 10 ^ places < r + 1 := by exact_mod_cast hlt
    omega
  · have hlt : (r : ℚ) < 10 ^ (places + 1) + 1 := by linarith
    have hlt : r < 10 ^ (places + 1) + 1 := by exact_mod_cast hlt
    omega
  · rw [div_le_iff₀ hpos] at hr'
    rw [le_div_iff₀ hpos] at hr hlow
    have hunits : (10 : ℚ) ^ (floorLog10 num den - places) ≤ num / den / 10 ^ places := by
      rw [le_div_iff₀ (by positivity)]
      linarith
    rw [abs_le]
    constructor <;> linarith

/-- A decimal has the digits that were asked for, and is off by half of the last one at most. -/
theorem decimalOf_spec (places : ℕ) :
    10 ^ places ≤ (decimalOf places num den).digits ∧
    (decimalOf places num den).digits < 10 ^ (places + 1) ∧
    |((decimalOf places num den).digits : ℚ) * 10 ^ ((decimalOf places num den).exponent - places)
      - num / den| ≤ num / den / 10 ^ places / 2 := by
  obtain ⟨hlow, hhigh, hnear⟩ := roundDiv_scaled hnum hden places rfl
  rw [decimalOf, if_neg hnum.ne']
  dsimp only
  split
  · rename_i htop
    rw [htop] at hnear
    refine ⟨Nat.le_refl _, Nat.pow_lt_pow_right (by decide) (Nat.lt_succ_self _), ?_⟩
    -- the digits are one fewer, and the exponent is one more
    have hsame : (10 ^ places : ℚ) * 10 ^ (floorLog10 num den + 1 - places)
        = 10 ^ (places + 1) * 10 ^ (floorLog10 num den - places) := by
      rw [show floorLog10 num den + 1 - places = 1 + (floorLog10 num den - places) by omega,
        ten_zpow_add, zpow_one, pow_succ, mul_assoc]
    push_cast at hnear ⊢
    rwa [hsame]
  · rename_i htop
    exact ⟨hlow, Nat.lt_of_le_of_ne hhigh htop, hnear⟩

/-- Seventeen digits are enough to tell a double. -/
theorem roundsTo_decimalOf {m : ℕ} {e : ℤ} (h : InRange m e) (hq : (num : ℚ) / den = m * 2 ^ e)
    (hplaces : 16 ≤ places) : RoundsTo m e (decimalOf places num den).value := by
  obtain ⟨hlow, hhigh, hnear⟩ := decimalOf_spec hnum hden places
  have hunit : (0 : ℚ) < 2 ^ e := zpow_pos two_pos e
  have hfew : (10 : ℚ) ^ 16 ≤ 10 ^ places := pow_le_pow_right₀ (by norm_num) hplaces
  have hm : (m : ℚ) < 2 ^ 53 := by exact_mod_cast h.lt
  rw [Decimal.value_eq ⟨hlow, hhigh⟩]
  rw [hq] at hnear
  -- the magnitude is less than 10 ^ 16, so this is less than half a unit
  have hoff : (m : ℚ) * 2 ^ e / 10 ^ places / 2 ≤ m * 2 ^ e / 10 ^ 16 / 2 := by
    gcongr
  apply RoundsTo.of_near
  · refine lt_of_le_of_lt (hnear.trans hoff) ?_
    nlinarith
  · intro hpower
    refine (hnear.trans hoff).trans ?_
    rw [hpower]
    push_cast
    linarith

end Digits

/-! ## The fewest digits -/

namespace RoundingInterval

variable {m : ℕ} {e : ℤ}

/-- A quarter of the unit of a double, as a quotient. -/
def quarter (e : ℤ) : ℕ × ℕ := ratioOf 1 (e - 2)

theorem quarter_pos (e : ℤ) : 0 < (quarter e).1 ∧ 0 < (quarter e).2 := by
  have hpos := powerOf_pos (b := 2) (by decide) (e - 2)
  exact ⟨Nat.mul_pos Nat.one_pos hpos.1, hpos.2⟩

theorem cast_quarter (e : ℤ) : (2 : ℚ) ^ e = 4 * ((quarter e).1 / (quarter e).2) := by
  rw [quarter, cast_ratioOf, zpow_sub₀ two_ne_zero]
  norm_num
  ring

/-- How many quarters the interval reaches below the double. -/
def reach (m : ℕ) (e : ℤ) : ℕ := if m = 2 ^ 52 && -1074 < e then 1 else 2

theorem of_eq (m : ℕ) (e : ℤ) : RoundingInterval.of m e =
    ⟨(4 * m - reach m e) * (quarter e).1, 4 * m * (quarter e).1, (4 * m + 2) * (quarter e).1,
      (quarter e).2, m % 2 = 0⟩ := rfl

theorem quotients_le {x a b n c d : ℕ} (hb : 0 < b) (hd : 0 < d) :
    x * a * d ≤ n * c * b ↔ (x : ℚ) * (a / b) ≤ n * (c / d) := by
  rw [← mul_div_assoc, ← mul_div_assoc,
    div_le_div_iff₀ (by exact_mod_cast hb) (by exact_mod_cast hd)]
  exact_mod_cast Iff.rfl

theorem quotients_lt {x a b n c d : ℕ} (hb : 0 < b) (hd : 0 < d) :
    x * a * d < n * c * b ↔ (x : ℚ) * (a / b) < n * (c / d) := by
  rw [← not_le, ← not_le, quotients_le hd hb]

/-- A point on a grid that is in the interval of a double is rounded to it. -/
theorem roundsTo_of_holds (hm : 0 < m) {n : ℕ} {unit : ℕ × ℕ} (hunit : 0 < unit.2)
    (h : (RoundingInterval.of m e).holds n unit = true) :
    RoundsTo m e (n * (unit.1 / unit.2)) := by
  have hden := (quarter_pos e).2
  have hpos : (0 : ℚ) < (quarter e).1 / (quarter e).2 := by
    have hunit : (0 : ℚ) < 2 ^ e := zpow_pos two_pos e
    rw [cast_quarter] at hunit
    linarith
  have hreach : reach m e ≤ 2 := by
    unfold reach
    split <;> omega
  have hlow : (((4 * m - reach m e : ℕ) : ℚ)) = 4 * m - reach m e := by
    rw [Nat.cast_sub (by omega)]
    push_cast
    rfl
  have hreach' : (reach m e : ℚ) ≤ 2 := by exact_mod_cast hreach
  have hpower : m = 2 ^ 52 → -1074 < e → reach m e = 1 := by
    intro hm he
    simp [reach, hm, he]
  rw [of_eq, holds] at h
  dsimp only at h
  -- the ends of the interval belong to it only if the magnitude is even
  by_cases heven : m % 2 = 0
  · simp only [heven, decide_true, if_true, Bool.and_eq_true, decide_eq_true_eq] at h
    rw [quotients_le hden hunit, quotients_le hunit hden, hlow] at h
    push_cast at h
    refine ⟨?_, ?_, fun hodd => absurd heven (by omega), fun hm he => ?_⟩
    · rw [cast_quarter]
      nlinarith
    · rw [cast_quarter]
      linarith
    · rw [cast_quarter]
      rw [hpower hm he] at h
      push_cast at h
      linarith
  · simp only [heven, decide_false, Bool.false_eq_true, if_false, Bool.and_eq_true,
      decide_eq_true_eq] at h
    rw [quotients_lt hden hunit, quotients_lt hunit hden, hlow] at h
    push_cast at h
    have hinside : (m - 1 / 2 : ℚ) * 2 ^ e < n * (unit.1 / unit.2) ∧
        (n * (unit.1 / unit.2) : ℚ) < (m + 1 / 2 : ℚ) * 2 ^ e := by
      rw [cast_quarter]
      constructor
      · nlinarith
      · linarith
    exact ⟨hinside.1.le, hinside.2.le, fun _ => hinside, fun hm _ => absurd hm (by omega)⟩

/-- What is found on a grid is in the interval, and one of the two neighbours of the value. -/
theorem onGrid_eq_some {i : RoundingInterval} {n : ℕ} {unit : ℕ × ℕ}
    (h : i.onGrid unit = some n) : i.holds n unit = true ∧
      i.value * unit.2 / (i.den * unit.1) ≤ n ∧ n ≤ i.value * unit.2 / (i.den * unit.1) + 1 := by
  unfold onGrid at h
  dsimp only at h
  split at h
  · rw [Option.some.injEq] at h
    subst h
    refine ⟨‹_›, ?_⟩
    unfold roundDiv
    dsimp only
    repeat' split
    all_goals omega
  · generalize hother : (if roundDiv (i.value * unit.2) (i.den * unit.1)
        = i.value * unit.2 / (i.den * unit.1) then _ else _) = other at h
    split at h
    · rw [Option.some.injEq] at h
      subst h
      refine ⟨‹_›, ?_⟩
      rw [← hother]
      split <;> omega
    · cases h

end RoundingInterval

/-- The decimal of a point that was found on the grid of so many digits. -/
theorem value_of_found {n places : ℕ} {F : ℤ} (hlow : 10 ^ places ≤ n)
    (hhigh : n ≤ 10 ^ (places + 1)) :
    0 < (if n = 10 ^ (places + 1) then Decimal.mk 1 (F + 1) else ⟨dropZeros 17 n, F⟩).digits ∧
    (if n = 10 ^ (places + 1) then Decimal.mk 1 (F + 1) else ⟨dropZeros 17 n, F⟩).value
      = n * 10 ^ (F - places) := by
  split
  · rename_i htop
    refine ⟨Nat.one_pos, ?_⟩
    rw [Decimal.value_one, htop, Nat.cast_pow, ← zpow_natCast, Nat.cast_ofNat, ← ten_zpow_add]
    congr 1
    omega
  · rename_i htop
    have hpos : 0 < n := Nat.lt_of_lt_of_le (Nat.pow_pos (by decide)) hlow
    obtain ⟨hvalue, hdropped⟩ := Decimal.value_dropZeros 17 n F
    exact ⟨hdropped hpos, hvalue.trans
      (Decimal.value_eq ⟨hlow, Nat.lt_of_le_of_ne hhigh htop⟩)⟩

/-- The decimal with the fewest digits is rounded back to the double. -/
theorem roundsTo_shortestDecimal {m : ℕ} {e : ℤ} (h : InRange m e) (hm : 0 < m) :
    0 < (shortestDecimal m e).digits ∧ RoundsTo m e (shortestDecimal m e).value := by
  have hden := (RoundingInterval.quarter_pos e).2
  have hquarter := RoundingInterval.cast_quarter e
  have hvalue : ((4 * m * (RoundingInterval.quarter e).1 : ℕ) : ℚ) / (RoundingInterval.quarter e).2
      = m * 2 ^ e := by
    rw [hquarter]
    push_cast
    ring
  have hnum : 0 < 4 * m * (RoundingInterval.quarter e).1 :=
    Nat.mul_pos (by omega) (RoundingInterval.quarter_pos e).1
  unfold shortestDecimal
  rw [RoundingInterval.of_eq]
  dsimp only
  cases hfound : List.findSome? _ (List.range 17) with
  | none =>
    obtain ⟨hlow, -⟩ := decimalOf_spec hnum hden 16
    exact ⟨Nat.lt_of_lt_of_le (by decide) hlow, roundsTo_decimalOf hnum hden h hvalue (by decide)⟩
  | some d =>
    obtain ⟨places, -, hplaces⟩ := List.exists_of_findSome?_eq_some hfound
    obtain ⟨n, hn, rfl⟩ := Option.map_eq_some_iff.1 hplaces
    obtain ⟨hholds, hfloor, hceil⟩ := RoundingInterval.onGrid_eq_some hn
    obtain ⟨hlow, hhigh⟩ := floor_scaled hnum hden places rfl
    obtain ⟨hpos, hfound_value⟩ := value_of_found (n := n) (Nat.le_trans hlow hfloor)
      (Nat.le_trans hceil hhigh)
    refine ⟨hpos, ?_⟩
    have hunit := powerOf_pos (b := 10) (by decide)
      (floorLog10 (4 * m * (RoundingInterval.quarter e).1) (RoundingInterval.quarter e).2 - places)
    have hrounds := RoundingInterval.roundsTo_of_holds hm hunit.2 hholds
    rw [Option.getD_some, hfound_value]
    rwa [cast_powerOf] at hrounds

end ClusterRounds.Number
