/-
  ClusterRounds.Proofs.Lloyd.Reorder

  The order of the points does not matter. What a round makes of the points as a whole,
  the sums and numbers of the labels' points and the cost, is the same in any order, and a
  label depends on its point alone. So rounds over points in another order form the same
  centroids, and their labels come in that order.
-/

import Mathlib.Algebra.BigOperators.Group.List.Basic
import Mathlib.Data.Fin.Tuple.Sort
import ClusterRounds.Proofs.Lloyd.Refinement

namespace ClusterRounds

/-! ## Lists in another order -/

/-- At each place the second list has what the first one has at the place that `σ` says. -/
structure Rearranged {β : Type} {size : Nat} (σ : Equiv.Perm (Fin size)) (xs ys : List β) :
    Prop where
  length_left : xs.length = size
  length_right : ys.length = size
  getElem?_eq : ∀ i : Fin size, ys[i.val]? = xs[(σ i).val]?

namespace Rearranged

variable {β γ : Type} {size : Nat} {σ : Equiv.Perm (Fin size)} {xs ys : List β}
  (h : Rearranged σ xs ys)

include h

theorem map (f : β → γ) : Rearranged σ (xs.map f) (ys.map f) where
  length_left := by rw [List.length_map, h.length_left]
  length_right := by rw [List.length_map, h.length_right]
  getElem?_eq i := by rw [List.getElem?_map, List.getElem?_map, h.getElem?_eq i]

theorem perm : ys.Perm xs := by
  obtain ⟨hleft, hright, hget⟩ := h
  subst hleft
  have hxs : xs = List.ofFn fun i : Fin xs.length => xs[i] := List.ofFn_getElem.symm
  have hys : ys = List.ofFn ((fun i : Fin xs.length => xs[i]) ∘ σ) := by
    apply List.ext_getElem (by rw [hright, List.length_ofFn])
    intro i hi hi'
    have := hget ⟨i, hright ▸ hi⟩
    rw [List.getElem?_eq_getElem hi, List.getElem?_eq_getElem (σ _).isLt, Option.some.injEq] at this
    rw [this, List.getElem_ofFn]
    rfl
  rw [hys]
  exact (Equiv.Perm.ofFn_comp_perm σ _).trans (hxs ▸ List.Perm.refl _)

end Rearranged

namespace Lloyd

/-! ## One round -/

section Round

variable {xs ys : List (Nat × List Rat)} (h : ys.Perm xs)

include h

theorem members_perm (j : Nat) : (members j ys).Perm (members j xs) := (h.filter _).map _

theorem mean_members_perm (width j : Nat) :
    mean width (members j ys) = mean width (members j xs) := by
  have hm := members_perm h j
  rw [mean, mean, total_perm hm, hm.length_eq]

theorem next_perm (width : Nat) (centroids : List (List Rat)) :
    next width centroids ys = next width centroids xs := by
  unfold next
  congr 1
  funext j c
  rw [mean_members_perm h width j]
  -- a label has points in both orders or in none
  have hnone : members j ys = [] ↔ members j xs = [] := by
    rw [← List.length_eq_zero_iff, (members_perm h j).length_eq, List.length_eq_zero_iff]
  simp only [hnone]

theorem cost_perm (centroids : List (List Rat)) : cost centroids ys = cost centroids xs :=
  (h.map _).sum_eq

end Round

variable (settings : Settings) (distances : Tensor Rat → List Rat → List Rat) (width : Nat)
  {size : Nat} {σ : Equiv.Perm (Fin size)} {points points' : List (List Rat)}

/-- A round makes the same of the points in another order, but for the order of the labels. -/
theorem turn_rearranged (h : Rearranged σ points points') (mark : Mark Rat) :
    ∃ labels, turn settings distances width points' mark
        = { turn settings distances width points mark with labels } ∧
      Rearranged σ (turn settings distances width points mark).labels labels := by
  have hxs : Rearranged σ (labelled (distances mark.centroids) points)
      (labelled (distances mark.centroids) points') := h.map _
  refine ⟨_, ?_, hxs.map _⟩
  unfold turn
  dsimp only
  rw [next_perm hxs.perm, cost_perm hxs.perm]

/-! ## All rounds -/

/-- So do all rounds. -/
theorem run_rearranged (h : Rearranged σ points points') :
    ∀ (fuel : Nat) (mark : Mark Rat), ∃ labels,
      run settings distances width points' fuel mark
        = { run settings distances width points fuel mark with labels } ∧
      Rearranged σ (run settings distances width points fuel mark).labels labels
  | 0, mark => by
    obtain ⟨labels, ht, hlabels⟩ := turn_rearranged settings distances width h mark
    refine ⟨labels, ?_, hlabels⟩
    rw [run, ht]
    rfl
  | fuel + 1, mark => by
    obtain ⟨labels, ht, hlabels⟩ := turn_rearranged settings distances width h mark
    rw [run, run, ht]
    dsimp only
    split
    · exact ⟨labels, rfl, hlabels⟩
    · exact run_rearranged h fuel _

end Lloyd

/-! ## Runs -/

/-- Row order does not matter. In exact arithmetic and with a measure that computes row by row, runs
    over any splits of a matrix and of its rows in another order return the same centroids, the same
    number of rounds, the same inertia of each round, and both have converged or neither; and the
    labels of the one are those of the other in that order. -/
theorem row_order_does_not_matter {settings : Settings} {m : Measure Rat}
    {row : Tensor Rat → List Rat → List Rat} (hm : m.RowByRow row) {size width : Nat}
    (hwidth : 0 < width) {points points' : Tensor Rat} {σ : Equiv.Perm (Fin size)}
    (hrows : Rearranged σ points.rowLists points'.rowLists) {parts parts' : List (Tensor Rat)}
    (hsplit : IsSplit width parts points) (hsplit' : IsSplit width parts' points')
    {initial : Tensor Rat} (hinitial : initial.shape = [settings.k, width]) {a b : Attempt Rat}
    (ha : a.Undisturbed ⟨settings, m, parts⟩) (hb : b.Undisturbed ⟨settings, m, parts'⟩)
    {slot slot' : Slot Rat} (hslot : slot.Usable) (hslot' : slot'.Usable) :
    ∃ r s r' s', a.run slot parts initial = .ok r s ∧ b.run slot' parts' initial = .ok r' s' ∧
      r'.centroids = r.centroids ∧ r'.rounds = r.rounds ∧ r'.converged = r.converged ∧
      r'.inertia = r.inertia ∧ Rearranged σ r.labels r'.labels := by
  obtain ⟨r, s, hrun, hfound⟩ := run_matches_lloyd hm hwidth hinitial hsplit ha hslot
  obtain ⟨r', s', hrun', hfound'⟩ := run_matches_lloyd hm hwidth hinitial hsplit' hb hslot'
  obtain ⟨labels, hsame, hlabels⟩ :=
    Lloyd.run_rearranged settings row width hrows settings.maxRounds (.start initial)
  rw [hsame, ← hfound] at hfound'
  rw [← hfound] at hlabels
  refine ⟨r, s, r', s', hrun, hrun', congrArg Findings.centroids hfound',
    congrArg Findings.rounds hfound', congrArg Findings.converged hfound',
    congrArg Findings.inertia hfound', ?_⟩
  rw [show r'.labels = labels from congrArg Findings.labels hfound']
  exact hlabels

/-! ## Three points from back to front -/

namespace Sample

/-- The attempt at the sample, for any partitions. -/
theorem attempt_undisturbed_of (parts : List (Tensor Rat)) :
    (attempt task.measure).Undisturbed ⟨settings, task.measure, parts⟩ where
  settings_eq := rfl
  plan := ⟨(Measure.stateless_euclidean _).matches, rfl, 1, rfl⟩
  criterion := rfl

theorem length_of_mem_singletons {xs : List Rat} :
    ∀ row ∈ xs.map ([·]), row.length = Shape.size [1] := by
  intro row hrow
  obtain ⟨x, -, rfl⟩ := List.mem_map.1 hrow
  rfl

theorem rowLists_column (xs : List Rat) : (column xs).rowLists = xs.map ([·]) :=
  Tensor.rowLists_ofRowLists length_of_mem_singletons

theorem isSplit_columns (xs ys : List Rat) :
    IsSplit 1 [column xs, column ys] (column (xs ++ ys)) where
  ne_nil := List.cons_ne_nil _ _
  shape p hp := by
    have hshape (xs : List Rat) : (column xs).shape = [(xs.map ([·])).length, 1] :=
      Tensor.shape_ofRowLists length_of_mem_singletons
    rcases List.mem_cons.1 hp with rfl | hp
    · exact ⟨_, 1, hshape xs, .inr rfl⟩
    · rw [List.mem_singleton.1 hp]
      exact ⟨_, 1, hshape ys, .inr rfl⟩
  rows := by simp [rowLists_column]

theorem attempt_labels :
    (Iteration.run (attempt task.measure).plan [column [0], column [5, 6]] (column [0, 6])).Ends
      ((attempt task.measure).session place) (fun r _ => r.labels = [0, 1, 1])
      (fun _ _ => False) := by
  decide +kernel

end Sample

/-- The points come from back to front, and are split at another place. -/
theorem row_order_does_not_matter_reversed : ∃ r s r' s',
    (Sample.attempt Sample.task.measure).run Sample.place
        [Sample.column [0], Sample.column [5, 6]] (Sample.column [0, 6]) = .ok r s ∧
    (Sample.attempt Sample.task.measure).run Sample.place
        [Sample.column [6, 5], Sample.column [0]] (Sample.column [0, 6]) = .ok r' s' ∧
    r'.centroids = r.centroids ∧ r.labels = [0, 1, 1] ∧ r'.labels = [1, 1, 0] := by
  have hrows : Rearranged (Equiv.swap (0 : Fin 3) 2) (Sample.column [0, 5, 6]).rowLists
      (Sample.column [6, 5, 0]).rowLists := by
    rw [Sample.rowLists_column, Sample.rowLists_column]
    exact ⟨rfl, rfl, by decide⟩
  have hinitial : (Sample.column [0, 6]).shape = [Sample.settings.k, 1] := rfl
  obtain ⟨r, s, r', s', hrun, hrun', hcentroids, -, -, -, hlabels⟩ :=
    row_order_does_not_matter (Measure.rowByRow_euclidean "EuclideanDistanceMeasure") Nat.one_pos
      hrows (Sample.isSplit_columns [0] [5, 6]) (Sample.isSplit_columns [6, 5] [0]) hinitial
      (Sample.attempt_undisturbed_of _) (Sample.attempt_undisturbed_of _) Sample.usable_place
      Sample.usable_place
  have hfirst := Sample.attempt_labels.of_ok hrun
  refine ⟨r, s, r', s', hrun, hrun', hcentroids, hfirst, ?_⟩
  -- the labels of the first run settle those of the second
  rw [hfirst] at hlabels
  apply List.ext_getElem?
  intro i
  rcases i with _ | _ | _ | i
  · exact hlabels.getElem?_eq 0
  · exact hlabels.getElem?_eq 1
  · exact hlabels.getElem?_eq 2
  · rw [List.getElem?_eq_none (by rw [hlabels.length_right]; omega)]
    rfl

end ClusterRounds
