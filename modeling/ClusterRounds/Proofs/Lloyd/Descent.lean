/-
  ClusterRounds.Proofs.Lloyd.Descent

  The inertia never grows. Labelling by a nearest centroid costs no more than any other
  labels, and no centroid costs the points of its label less than their mean; a label
  without points costs nothing. So what the next centroids cost with the labels of a
  round, and all the more what they cost in the next round, is at most the inertia of
  the round.
-/

import Mathlib.Algebra.BigOperators.Group.Finset.Basic
import Mathlib.Algebra.BigOperators.Ring.Finset
import Mathlib.Algebra.Order.BigOperators.Group.Finset
import Mathlib.Algebra.Order.BigOperators.Group.List
import Mathlib.Tactic.FieldSimp
import Mathlib.Tactic.Linarith
import Mathlib.Tactic.Ring
import ClusterRounds.Proofs.Lloyd.Refinement

namespace ClusterRounds
namespace Lloyd

open Finset

/-! ## The mean -/

section Mean

variable {width : Nat}

/-- The squares of the distances to a number. -/
theorem sum_squares (ys : List Rat) (c : Rat) :
    (ys.map fun y => (y - c) * (y - c)).sum
      = (ys.map fun y => y * y).sum - 2 * c * ys.sum + ys.length * (c * c) := by
  induction ys with
  | nil => simp
  | cons y ys ih =>
    simp only [List.map_cons, List.sum_cons, List.length_cons, ih]
    push_cast
    ring

/-- They are least for the mean. -/
theorem sum_squares_mean_le {ys : List Rat} (h : ys ≠ []) (c : Rat) :
    (ys.map fun y => (y - ys.sum / ys.length) * (y - ys.sum / ys.length)).sum
      ≤ (ys.map fun y => (y - c) * (y - c)).sum := by
  have hpos : (0 : Rat) < ys.length := by
    exact_mod_cast List.length_pos_iff.2 h
  obtain ⟨m, hm⟩ : ∃ m, m = ys.sum / ys.length := ⟨_, rfl⟩
  have hsum : ys.sum = ys.length * m := by
    rw [hm]
    field_simp
  rw [← hm, sum_squares, sum_squares, hsum]
  -- the difference is the square of the distance to the mean, once for each number
  have hsquare : 0 ≤ (ys.length : Rat) * ((m - c) * (m - c)) :=
    mul_nonneg hpos.le (mul_self_nonneg _)
  linarith [hsquare]

theorem sum_range_map (n : Nat) (f : Nat → Rat) :
    ((List.range n).map f).sum = ∑ i ∈ range n, f i := rfl

/-- The squared distance, coordinate by coordinate. -/
theorem squaredDistance_eq_sum {x c : List Rat} (hx : x.length = width) (hc : c.length = width) :
    squaredDistance x c
      = ∑ i ∈ range width, (x.getD i 0 - c.getD i 0) * (x.getD i 0 - c.getD i 0) := by
  have hzip : List.zipWith (· - ·) x c
      = (List.range width).map fun i => x.getD i 0 - c.getD i 0 := by
    apply List.ext_getElem (by simp [hx, hc])
    intro i hi _
    rw [List.length_zipWith, hx, hc, min_self] at hi
    simp [hx, hc, hi]
  unfold squaredDistance
  rw [hzip, List.map_map]
  exact sum_range_map _ _

/-- The cost of points for one centroid, coordinate by coordinate. -/
theorem sum_squaredDistance {points : List (List Rat)} (hpoints : ∀ x ∈ points, x.length = width)
    {c : List Rat} (hc : c.length = width) :
    (points.map fun x => squaredDistance x c).sum
      = ∑ i ∈ range width,
          ((points.map (·.getD i 0)).map fun y => (y - c.getD i 0) * (y - c.getD i 0)).sum := by
  induction points with
  | nil => simp
  | cons x points ih =>
    simp only [List.map_cons, List.sum_cons, sum_add_distrib]
    rw [squaredDistance_eq_sum (hpoints x (by simp)) hc, ih fun y hy => hpoints y (by simp [hy])]

/-- No centroid costs points less than their mean. -/
theorem sum_squaredDistance_mean_le {points : List (List Rat)} (hne : points ≠ [])
    (hpoints : ∀ x ∈ points, x.length = width) {c : List Rat} (hc : c.length = width) :
    (points.map fun x => squaredDistance x (mean width points)).sum
      ≤ (points.map fun x => squaredDistance x c).sum := by
  have hmean : (mean width points).length = width := by simp [mean]
  rw [sum_squaredDistance hpoints hmean, sum_squaredDistance hpoints hc]
  apply sum_le_sum
  intro i hi
  have hi := mem_range.1 hi
  have hcoordinate : (mean width points).getD i 0
      = (points.map (·.getD i 0)).sum / (points.map (·.getD i 0)).length := by
    simp [mean, total, hi]
  rw [hcoordinate]
  exact sum_squares_mean_le (by simpa using hne) _

end Mean

/-! ## The cost of a round -/

section Cost

variable {width k : Nat} {centroids : List (List Rat)} {xs : List (Nat × List Rat)}

/-- The cost, label by label. -/
theorem cost_eq_sum (hxs : ∀ e ∈ xs, e.1 < k) :
    cost centroids xs = ∑ j ∈ range k,
      ((members j xs).map fun x => squaredDistance x (centroids.getD j [])).sum := by
  induction xs with
  | nil => simp [cost]
  | cons e xs ih =>
    -- one more point counts for its own label only
    have hstep : ∀ j ∈ range k,
        ((members j (e :: xs)).map fun x => squaredDistance x (centroids.getD j [])).sum
          = (if e.1 = j then squaredDistance e.2 (centroids.getD j []) else 0)
            + ((members j xs).map fun x => squaredDistance x (centroids.getD j [])).sum := by
      intro j _
      rw [← List.singleton_append, members_append, members_singleton]
      split <;> simp
    rw [sum_congr rfl hstep, sum_add_distrib, ← ih fun f hf => hxs f (by simp [hf]), sum_ite_eq,
      if_pos (mem_range.2 (hxs e (by simp)))]
    rfl

/-- With the labels of a round the next centroids cost no more than those before. -/
theorem cost_next_le (hcentroids : ∀ c ∈ centroids, c.length = width)
    (hlabels : ∀ e ∈ xs, e.1 < centroids.length) (hpoints : ∀ e ∈ xs, e.2.length = width) :
    cost (next width centroids xs) xs ≤ cost centroids xs := by
  rw [cost_eq_sum hlabels, cost_eq_sum hlabels]
  apply sum_le_sum
  intro j hj
  have hj := mem_range.1 hj
  have hnext : (next width centroids xs).getD j []
      = if members j xs = [] then centroids.getD j [] else mean width (members j xs) := by
    simp [next, List.getElem?_eq_getElem hj]
  rw [hnext]
  split
  · exact le_rfl
  · rename_i hne
    refine sum_squaredDistance_mean_le hne (fun x hx => hpoints _ (mem_of_mem_members hx)) ?_
    rw [List.getD_eq_getElem _ _ hj]
    exact hcentroids _ (List.getElem_mem hj)

/-- No labels cost less than those of the nearest centroids. -/
theorem cost_labelled_le (hlabels : ∀ e ∈ xs, e.1 < centroids.length) :
    cost centroids (labelled (fun x => centroids.map (squaredDistance x)) (xs.map (·.2)))
      ≤ cost centroids xs := by
  unfold cost labelled
  rw [List.map_map, List.map_map]
  apply List.sum_le_sum
  intro e he
  have hlt := hlabels e he
  have hne : centroids.map (squaredDistance e.2) ≠ [] := by
    intro hnil
    rw [List.map_eq_nil_iff.1 hnil] at hlt
    exact absurd hlt (Nat.not_lt_zero _)
  -- point by point, since each label is chosen for its own point
  have hleast := isFirstLeast_leastPlace hne
  have hentry : ∀ {j : Nat}, j < centroids.length →
      (centroids.map (squaredDistance e.2)).getD j 0 = squaredDistance e.2 (centroids.getD j []) := by
    intro j hj
    simp [List.getElem?_eq_getElem hj]
  have hle := hleast.least e.1 (by simpa using hlt)
  rw [hentry (by simpa using hleast.lt), hentry hlt] at hle
  exact hle

end Cost

/-! ## Two rounds -/

section Rounds

/-- The squared Euclidean distances of a point to all centroids. -/
def distances (centroids : Tensor Rat) (point : List Rat) : List Rat :=
  centroids.rowLists.map (squaredDistance point)

theorem rowByRow_distances (className : String) :
    (Measure.euclidean className : Measure Rat).RowByRow distances := by
  have hsame : (distances : Tensor Rat → List Rat → List Rat)
      = fun centroids point => centroids.rowLists.map (Measure.rowDistance point) := by
    funext centroids point
    refine List.map_congr_left fun c _ => ?_
    exact (sumSquares_eq _).symm
  rw [hsame]
  exact Measure.rowByRow_euclidean className

variable {k size width : Nat} {points centroids new : Tensor Rat} {xs : List (Nat × List Rat)}
  (hpoints : points.shape = [size, width]) (hcentroids : centroids.shape = [k, width]) (hk : 0 < k)
  (hxs : xs = labelled (distances centroids) points.rowLists)
  (hnew : new = .ofRowLists [width] (next width centroids.rowLists xs))

include hpoints hcentroids hk hxs hnew

/-- The costs of the next centroids: with the labels of the round they are a result of the program
    and at most the inertia of the round, and with their own labels they are no more than that. -/
theorem costs_of_next :
    Quality.inertia points new (xs.map fun e => (e.1 : Int)) = .ok (cost new.rowLists xs) ∧
      cost new.rowLists xs ≤ cost centroids.rowLists xs ∧
      cost new.rowLists (labelled (distances new) points.rowLists) ≤ cost new.rowLists xs := by
  obtain ⟨hshape, hrows⟩ := matrix_next hcentroids xs
  rw [← hnew] at hshape hrows
  have hsnd : xs.map (·.2) = points.rowLists := by rw [hxs, map_snd_labelled]
  have hlabels : ∀ e ∈ xs, e.1 < k := by
    rw [hxs]
    exact (nearest_eq (rowByRow_distances "") hk hcentroids hpoints (.inr rfl) 0).2
  have hwidths : ∀ e ∈ xs, e.2.length = width := by
    intro e he
    have hmem : e.2 ∈ points.rowLists := hsnd ▸ List.mem_map.2 ⟨e, he, rfl⟩
    simpa using Tensor.length_of_mem_rowLists hpoints hmem
  refine ⟨inertia_eq hpoints hshape hsnd hlabels, ?_, ?_⟩
  · rw [hrows]
    refine cost_next_le (fun c hc => ?_) (fun e he => ?_) hwidths
    · simpa using Tensor.length_of_mem_rowLists hcentroids hc
    · rw [Tensor.length_rowLists hcentroids]
      exact hlabels e he
  · rw [← hsnd]
    refine cost_labelled_le fun e he => ?_
    rw [Tensor.length_rowLists hshape]
    exact hlabels e he

end Rounds

end Lloyd

/-! ## The inertia of a run -/

section Descent

variable {settings : Settings} {className : String} {parts : List (Tensor Rat)}
  {points : Tensor Rat} {size width : Nat}

/-- The inertia has never grown, and the next round does not make it grow. -/
structure Mark.Descends (mark : Mark Rat) (points : Tensor Rat) : Prop where
  inertia : mark.inertia.Pairwise (· ≥ ·)
  next : ∀ x ∈ mark.inertia, Lloyd.cost mark.centroids.rowLists
    (Lloyd.labelled (Lloyd.distances mark.centroids) points.rowLists) ≤ x

/-- The inertia has never grown, and the centroids that are found cost the points, with the labels
    that are found, at most its last value. -/
structure Findings.Descends (found : Findings Rat) (points : Tensor Rat) : Prop where
  inertia : found.inertia.Pairwise (· ≥ ·)
  final : ∃ cost last, Quality.inertia points found.centroids found.labels = .ok cost ∧
    found.inertia.getLast? = some last ∧ cost ≤ last

variable (hpoints : points.shape = [size, width]) (hwidth : 0 < width)
  (hsplit : IsSplit width parts points)

include hpoints hwidth hsplit

/-- One round. -/
theorem Mark.Descends.turn {criterion : Criterion Rat} {mark : Mark Rat} {t : Turn Rat}
    (hshape : Task.Shaped ⟨settings, .euclidean className, parts⟩ width mark.centroids)
    (h : mark.Descends points)
    (ht : Task.turnAsking ⟨settings, .euclidean className, parts⟩ criterion mark = .ok t) :
    (mark.after t).Descends points ∧ (mark.findings t).Descends points := by
  rw [Lloyd.turnAsking_eq (Lloyd.rowByRow_distances className) hshape hwidth, hsplit.rows] at ht
  obtain ⟨stop, -, rfl⟩ := map_eq_ok.1 ht
  obtain ⟨hfinal, hmeans, hnearest⟩ :=
    Lloyd.costs_of_next hpoints hshape.centroids settings.k_pos rfl rfl
  have hinertia : (mark.inertia ++ [Lloyd.cost mark.centroids.rowLists
      (Lloyd.labelled (Lloyd.distances mark.centroids) points.rowLists)]).Pairwise (· ≥ ·) := by
    rw [List.pairwise_append]
    refine ⟨h.inertia, List.pairwise_singleton _ _, fun x hx y hy => ?_⟩
    rw [List.mem_singleton.1 hy]
    exact h.next x hx
  refine ⟨⟨hinertia, fun x hx => ?_⟩, ⟨hinertia, _, _, hfinal, List.getLast?_concat, hmeans⟩⟩
  -- the next round costs at most what this one did, and this one at most what those before did
  refine (hnearest.trans hmeans).trans ?_
  rcases List.mem_append.1 hx with hx | hx
  · exact h.next x hx
  · rw [List.mem_singleton.1 hx]
    exact le_rfl

/-- All rounds. -/
theorem descends_of_rounds :
    ∀ {fuel : Nat} {criterion : Criterion Rat} {mark : Mark Rat} {found : Findings Rat},
      Task.Shaped ⟨settings, .euclidean className, parts⟩ width mark.centroids →
      mark.Descends points →
      Task.rounds ⟨settings, .euclidean className, parts⟩ fuel criterion mark = .ok found →
      found.Descends points
  | 0, _, _, _, _, _, hfound => nomatch hfound
  | fuel + 1, criterion, mark, found, hshape, h, hfound => by
    obtain ⟨t, ht, hfound⟩ := bind_eq_ok.1 hfound
    obtain ⟨hafter, hfindings⟩ := h.turn hpoints hwidth hsplit hshape ht
    split at hfound
    · cases pure_eq_ok.1 hfound
      exact hfindings
    · exact descends_of_rounds (hshape.turnAsking ht) hafter hfound

end Descent

/-- In exact arithmetic and with the Euclidean measure, the inertia never grows from one round to the
    next, and the sum of the squared distances of the points to the returned centroids of their
    returned labels is at most the last inertia. This holds of whatever a run over a split of the
    points returns, with any settings, any criterion and any number of workers; and an undisturbed
    run returns. -/
theorem inertia_never_grows (settings : Settings) (className : String) {points : Tensor Rat}
    {size width : Nat} (hpoints : points.shape = [size, width]) (hwidth : 0 < width) :
    ∀ (parts : List (Tensor Rat)) (initial : Tensor Rat), IsSplit width parts points →
      initial.shape = [settings.k, width] →
      ∀ (a : Attempt Rat) (slot : Slot Rat), slot.Usable →
        (a.plan.Serves ⟨settings, .euclidean className, parts⟩ →
          ∀ r s, a.run slot parts initial = .ok r s →
            r.inertia.Pairwise (· ≥ ·) ∧
            ∃ cost last, Quality.inertia points r.centroids r.labels = .ok cost ∧
              r.inertia.getLast? = some last ∧ cost ≤ last) ∧
        (a.Undisturbed ⟨settings, .euclidean className, parts⟩ →
          ∃ r s, a.run slot parts initial = .ok r s) := by
  intro parts initial hsplit hinitial a slot hslot
  constructor
  · intro hplan r s hrun
    have hshape : Task.Shaped ⟨settings, .euclidean className, parts⟩ width
        (Mark.start initial).centroids := hsplit.shaped hinitial
    have hends := Iteration.run_ends hplan
      (Iteration.checkInputs_of_shaped hsplit.ne_nil hshape) (Attempt.equipped hplan hslot)
    have hstart : (Mark.start initial).Descends points :=
      ⟨List.Pairwise.nil, fun x hx => nomatch hx⟩
    have hdescends := descends_of_rounds hpoints hwidth hsplit hshape hstart (hends.of_ok hrun).1
    exact ⟨hdescends.inertia, hdescends.final⟩
  · intro ha
    obtain ⟨r, s, hrun, -⟩ := run_matches_lloyd (Lloyd.rowByRow_distances className) hwidth hinitial
      hsplit ha hslot
    exact ⟨r, s, hrun⟩

/-- The three points of the sample, whose inertia falls. -/
theorem inertia_never_grows_sample : ∃ r s,
    (Sample.attempt Sample.task.measure).run Sample.place Sample.task.points Sample.initial
      = .ok r s ∧
    r.inertia.Pairwise (· ≥ ·) ∧
    ∃ cost last, Quality.inertia Sample.points r.centroids r.labels = .ok cost ∧
      r.inertia.getLast? = some last ∧ cost ≤ last := by
  have hshape : Sample.points.shape = [3, 1] := rfl
  obtain ⟨hdescends, hreturns⟩ := inertia_never_grows Sample.settings "EuclideanDistanceMeasure"
    hshape Nat.one_pos Sample.task.points Sample.initial Sample.isSplit_points rfl
    (Sample.attempt Sample.task.measure) Sample.place Sample.usable_place
  obtain ⟨r, s, hrun⟩ := hreturns Sample.attempt_undisturbed
  exact ⟨r, s, hrun, hdescends Sample.attempt_undisturbed.serves r s hrun⟩

end ClusterRounds
