/-
  ClusterRounds.Proofs.Comparing

  How doubles compare. Each has a rank: its sign, then its exponent, then its mantissa, those of
  negative numbers turned round; both zeros have the same, and the undefined double comes before
  all others. But for this one, doubles compare as their ranks do (`Number.compare_unpacked`), and
  the search for the least goes by the ranks of all (`Number.isLess_iff_rank`). Ranks are in
  a linear order, so what the search needs of doubles it has.
-/

import ClusterRounds.Scalar
import Mathlib.Data.Prod.Lex
import Mathlib.Order.Compare

namespace ClusterRounds.Number

open Float.Model (UnpackedFloat)

/-! ## Ranks -/

/-- Where a number stands among all. -/
def rank : UnpackedFloat → ℤ ×ₗ ℤ ×ₗ ℤ
  | .notANumber => toLex (-3, toLex (0, 0))
  | .infinity .negative => toLex (-2, toLex (0, 0))
  | .finite .negative m e _ => toLex (-1, toLex (-e, -m))
  | .zero _ => toLex (0, toLex (0, 0))
  | .finite .positive m e _ => toLex (1, toLex (e, m))
  | .infinity .positive => toLex (2, toLex (0, 0))

theorem compare_toLex (a b c a' b' c' : ℤ) :
    compare (toLex (a, toLex (b, c)) : ℤ ×ₗ ℤ ×ₗ ℤ) (toLex (a', toLex (b', c')))
      = (compare a a').then ((compare b b').then (compare c c')) := by
  rw [Prod.Lex.compare_def]
  simp only [compareLex, compareOn, ofLex_toLex, Prod.Lex.compare_def]

theorem compare_neg (i j : ℤ) : compare (-i) (-j) = (compare i j).swap := by
  rcases lt_trichotomy i j with h | rfl | h
  · rw [compare_gt_iff_gt.2 (Int.neg_lt_neg h), compare_lt_iff_lt.2 h, Ordering.swap_lt]
  · simp
  · rw [compare_lt_iff_lt.2 (Int.neg_lt_neg h), compare_gt_iff_gt.2 h, Ordering.swap_gt]

theorem compare_natCast (m n : ℕ) : compare (m : ℤ) (n : ℤ) = compare m n := by
  rcases lt_trichotomy m n with h | rfl | h
  · rw [compare_lt_iff_lt.2 h, compare_lt_iff_lt.2 (Int.ofNat_lt.2 h)]
  · simp
  · rw [compare_gt_iff_gt.2 h, compare_gt_iff_gt.2 (Int.ofNat_lt.2 h)]

/-- All but the undefined number compare as their ranks do. -/
theorem compare_unpacked {x y : UnpackedFloat} (hx : x.isNaN = false) (hy : y.isNaN = false) :
    x.compare y = some (compare (rank x) (rank y)) := by
  have hsize (m m' : ℕ) (e e' : ℤ) : compare (toLex (-1, toLex (-e, -(m : ℤ))) : ℤ ×ₗ ℤ ×ₗ ℤ)
      (toLex (-1, toLex (-e', -(m' : ℤ)))) = ((compare e e').then (compare m m')).swap := by
    rw [compare_toLex, compare_neg e, compare_neg m, compare_natCast, Ordering.swap_then]
    rfl
  have hsize' (m m' : ℕ) (e e' : ℤ) : compare (toLex (1, toLex (e, (m : ℤ))) : ℤ ×ₗ ℤ ×ₗ ℤ)
      (toLex (1, toLex (e', (m' : ℤ)))) = (compare e e').then (compare m m') := by
    rw [compare_toLex, compare_natCast]
    rfl
  rcases x with (_ | _) | _ | _ | ⟨_ | _, m, e, hm⟩ <;> try contradiction
  all_goals rcases y with (_ | _) | _ | _ | ⟨_ | _, m', e', hm'⟩ <;> try contradiction
  -- numbers of one sign compare by their sizes, others by their signs alone
  all_goals refine congrArg some ?_
  all_goals first
    | exact (hsize ..).symm
    | exact (hsize' ..).symm
    | refine Eq.trans ?_ (compare_toLex ..).symm; rfl

theorem rank_of_isNaN {x : UnpackedFloat} (h : x.isNaN = true) : rank x = toLex (-3, toLex (0, 0)) := by
  rcases x with _ | _ | _ | _ <;> first | contradiction | rfl

/-- The undefined number comes before all others. -/
theorem rank_lt_of_isNaN {x y : UnpackedFloat} (hx : x.isNaN = true) (hy : y.isNaN = false) :
    rank x < rank y := by
  rw [rank_of_isNaN hx, ← compare_lt_iff_lt]
  rcases y with (_ | _) | _ | _ | ⟨_ | _, m, e, hm⟩ <;> try contradiction
  all_goals refine (compare_toLex ..).trans ?_
  all_goals rfl

/-! ## Doubles -/

/-- The rank of a double. -/
def place (x : Float) : ℤ ×ₗ ℤ ×ₗ ℤ := rank x.toModel.unpack

section Doubles

variable {x y : Float}

theorem lt_iff_place (hx : x.isNaN = false) (hy : y.isNaN = false) : x < y ↔ place x < place y := by
  show decide (x.toModel < y.toModel) = true ↔ _
  rw [decide_eq_true_iff]
  show (x.toModel.unpack.compare y.toModel.unpack == some .lt) = true ↔ _
  rw [compare_unpacked hx hy, beq_iff_eq, Option.some.injEq]
  exact compare_lt_iff_lt

theorem le_iff_place (hx : x.isNaN = false) (hy : y.isNaN = false) : x ≤ y ↔ place x ≤ place y := by
  show decide (x.toModel ≤ y.toModel) = true ↔ _
  rw [decide_eq_true_iff]
  show (x.toModel.unpack.compare y.toModel.unpack).any (·.isLE) = true ↔ _
  rw [compare_unpacked hx hy, Option.any_some, Ordering.isLE_iff_ne_gt]
  exact compare_le_iff_le

theorem place_eq_of_isNaN (hx : x.isNaN = true) (hy : y.isNaN = true) : place x = place y :=
  (rank_of_isNaN hx).trans (rank_of_isNaN hy).symm

theorem place_lt_of_isNaN (hx : x.isNaN = true) (hy : y.isNaN = false) : place x < place y :=
  rank_lt_of_isNaN hx hy

/-- The search for the least goes by the places of the doubles. -/
theorem isLess_iff_place (x y : Float) : Scalar.isLess x y = true ↔ place x < place y := by
  show (!y.isNaN && (x.isNaN || decide (x < y))) = true ↔ _
  cases hx : x.isNaN with
  | true =>
    cases hy : y.isNaN with
    | true => exact iff_of_false (by simp) (place_eq_of_isNaN hx hy).not_lt
    | false => exact iff_of_true rfl (place_lt_of_isNaN hx hy)
  | false =>
    cases hy : y.isNaN with
    | true => exact iff_of_false (by simp) (place_lt_of_isNaN hy hx).asymm
    | false => simpa using lt_iff_place hx hy

end Doubles

end ClusterRounds.Number
