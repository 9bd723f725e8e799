/-
  ClusterRounds.Proofs.Lloyd.Reference

  Lloyd's algorithm over one list of points, in exact arithmetic, with nothing of
  partitions, sums by cluster or barriers in it: label every point with the lowest
  number of a nearest centroid, take the mean of the points of each label, keep the
  centroid of a label without points, and go on until the centroids settle or the
  rounds are used up.
-/

import Mathlib.Algebra.BigOperators.Group.List.Basic
import Mathlib.Algebra.Order.Ring.Rat
import Mathlib.Data.List.GetD
import ClusterRounds.Proofs.Course
import ClusterRounds.Proofs.Labels

namespace ClusterRounds
namespace Lloyd

/-! ## One round -/

/-- The first place at which a list is least. -/
def leastPlace (row : List Rat) : Nat := row.findIdx fun d => row.all fun e => decide (d ≤ e)

/-- The points with their labels, by the distances of a point to all centroids. -/
def labelled (distances : List Rat → List Rat) (points : List (List Rat)) :
    List (Nat × List Rat) :=
  points.map fun x => (leastPlace (distances x), x)

/-- The points of a label. -/
def members (j : Nat) (xs : List (Nat × List Rat)) : List (List Rat) :=
  (xs.filter (·.1 = j)).map (·.2)

/-- The sum of points, coordinate by coordinate. -/
def total (width : Nat) (points : List (List Rat)) : List Rat :=
  (List.range width).map fun c => (points.map (·.getD c 0)).sum

/-- The mean of points. -/
def mean (width : Nat) (points : List (List Rat)) : List Rat :=
  (total width points).map (· / points.length)

/-- The mean of each label's points; a label without points keeps its centroid. -/
def next (width : Nat) (centroids : List (List Rat)) (xs : List (Nat × List Rat)) :
    List (List Rat) :=
  centroids.mapIdx fun j c => if members j xs = [] then c else mean width (members j xs)

/-- The squared Euclidean distance. -/
def squaredDistance (x c : List Rat) : Rat := ((List.zipWith (· - ·) x c).map fun d => d * d).sum

/-- The sum of the squared distances of all points to the centroids of their labels. -/
def cost (centroids : List (List Rat)) (xs : List (Nat × List Rat)) : Rat :=
  (xs.map fun e => squaredDistance e.2 (centroids.getD e.1 [])).sum

/-- The largest change of a coordinate. -/
def change (old new : List (List Rat)) : Rat :=
  ((List.zipWith (· - ·) new.flatten old.flatten).map (|·|)).foldl max 0

/-- What a round comes to, at a mark. -/
def turn (settings : Settings) (distances : Tensor Rat → List Rat → List Rat) (width : Nat)
    (points : List (List Rat)) (mark : Mark Rat) : Turn Rat :=
  let centroids := mark.centroids.rowLists
  let xs := labelled (distances mark.centroids) points
  let settled := settings.tolerance.any (Scalar.isBelow (change centroids (next width centroids xs)))
  { next := .ofRowLists [width] (next width centroids xs)
    inertia := cost centroids xs
    labels := xs.map fun e => (e.1 : Int)
    converged := settled
    stop := decide ((settings.maxRounds : Int) ≤ mark.epoch + 1) || settled }

/-! ## All rounds -/

/-- What is found by the rounds from a mark on. There are at most as many as the fuel and one more,
    and a run has fuel for all its rounds. -/
def run (settings : Settings) (distances : Tensor Rat → List Rat → List Rat) (width : Nat)
    (points : List (List Rat)) : Nat → Mark Rat → Findings Rat
  | 0, mark => mark.findings (turn settings distances width points mark)
  | fuel + 1, mark =>
    let t := turn settings distances width points mark
    if t.stop then mark.findings t
    else run settings distances width points fuel (mark.after t)

/-! ## The first least place -/

/-- No entry of the row is less than the one at the place, and those before it are greater. -/
structure IsFirstLeast (row : List Rat) (p : Nat) : Prop where
  lt : p < row.length
  least : ∀ q < row.length, row.getD p 0 ≤ row.getD q 0
  first : ∀ q < p, row.getD p 0 < row.getD q 0

theorem IsFirstLeast.leastPlace_eq {row : List Rat} {p : Nat} (h : IsFirstLeast row p) :
    leastPlace row = p := by
  have hget : ∀ q (hq : q < row.length), row.getD q 0 = row[q] := by
    intro q hq
    rw [List.getD_eq_getElem _ _ hq]
  unfold leastPlace
  rw [List.findIdx_eq h.lt]
  constructor
  · rw [List.all_eq_true]
    intro e he
    obtain ⟨q, hq, rfl⟩ := List.mem_iff_getElem.1 he
    have := h.least q hq
    rw [hget p h.lt, hget q hq] at this
    exact decide_eq_true this
  · intro q hqp
    have hq : q < row.length := Nat.lt_trans hqp h.lt
    have := h.first q hqp
    rw [hget p h.lt, hget q hq] at this
    rw [Bool.eq_false_iff]
    intro hall
    have hp := h.lt
    have hle := of_decide_eq_true (List.all_eq_true.1 hall row[p] (List.getElem_mem hp))
    exact absurd this (not_lt.2 hle)

/-- The search finds the first least place. -/
theorem exists_isFirstLeast {row : List Rat} (h : row ≠ []) :
    ∃ p, Scalar.argMin row = .ok p ∧ IsFirstLeast row p := by
  have hless (x y : Rat) : Scalar.isLess x y = true ↔ x < y := by
    simp [Scalar.isLess, Scalar.isUndefined, Scalar.less]
  obtain ⟨front, x, back, rfl, hplace, hfront, hback⟩ := Scalar.argMin_splits hless h
  have hx : (front ++ x :: back).getD front.length 0 = x := by simp
  refine ⟨front.length, hplace, by simp, fun q hq => ?_, fun q hq => ?_⟩
  · rw [hx, List.getD_eq_getElem _ _ hq]
    rcases List.mem_append.1 (List.getElem_mem hq) with hmem | hmem
    · exact le_of_lt (hfront _ hmem)
    · rcases List.mem_cons.1 hmem with heq | hmem
      · exact le_of_eq heq.symm
      · exact hback _ hmem
  · rw [hx, List.getD_append _ _ _ _ hq, List.getD_eq_getElem _ _ hq]
    exact hfront _ (List.getElem_mem hq)

theorem argMin_eq {row : List Rat} (h : row ≠ []) : Scalar.argMin row = .ok (leastPlace row) := by
  obtain ⟨p, hp, hfirst⟩ := exists_isFirstLeast h
  rw [hp, hfirst.leastPlace_eq]

theorem isFirstLeast_leastPlace {row : List Rat} (h : row ≠ []) :
    IsFirstLeast row (leastPlace row) := by
  obtain ⟨p, -, hfirst⟩ := exists_isFirstLeast h
  exact hfirst.leastPlace_eq.symm ▸ hfirst

end Lloyd
end ClusterRounds
