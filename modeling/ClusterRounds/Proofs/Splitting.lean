/-
  ClusterRounds.Proofs.Splitting

  Splitting loses no point and keeps the order: the partitions that a number of parts or
  a chunk size makes of a matrix are matrices of its width, and their rows one after the
  other are its rows.
-/

import Mathlib.Algebra.Order.Ring.Nat
import ClusterRounds.Estimator
import ClusterRounds.Proofs.Outcome
import ClusterRounds.Proofs.Tensor

namespace ClusterRounds

variable {α : Type}

/-- The parts are matrices that hold the rows of a matrix, one part after the other. A part without
    rows may have any width. -/
structure IsSplit (width : Nat) (parts : List (Tensor α)) (points : Tensor α) : Prop where
  ne_nil : parts ≠ []
  shape : ∀ p ∈ parts, ∃ n w, p.shape = [n, w] ∧ (n = 0 ∨ w = width)
  rows : parts.flatMap Tensor.rowLists = points.rowLists

namespace Split

/-! ## Sizes -/

theorem sum_evenSizes (total n : Nat) : (evenSizes total n).sum = total := by
  unfold evenSizes
  rcases Nat.eq_zero_or_pos n with rfl | hn
  · simp
  · have hmod : total % n < n := Nat.mod_lt _ hn
    have hdiv := Nat.div_add_mod total n
    rw [List.sum_append, List.sum_replicate_nat]
    split
    · rename_i h
      rw [h, Nat.mul_zero, Nat.zero_add] at hdiv
      rw [h, List.sum_nil]
      omega
    · -- the longer parts take the remainder
      have hle : total % n * (total / n) ≤ n * (total / n) :=
        Nat.mul_le_mul_right _ (Nat.le_of_lt hmod)
      rw [List.sum_replicate_nat, Nat.mul_add, Nat.mul_one, Nat.sub_mul]
      omega

theorem sum_chunkSizes (total size : Nat) : (chunkSizes total size).sum = total := by
  have hdiv := Nat.div_add_mod total size
  unfold chunkSizes
  rw [List.sum_append, List.sum_replicate_nat, Nat.mul_comm]
  split
  · rename_i h
    rw [h] at hdiv
    simpa using hdiv
  · simpa using hdiv

/-! ## Parts -/

/-- What is cut is put together again. -/
theorem flatten_cut {β : Type} : ∀ (sizes : List Nat) (xs : List β), sizes.sum = xs.length →
    (cut sizes xs).flatten = xs
  | [], xs, h => (List.eq_nil_of_length_eq_zero h.symm).symm
  | n :: sizes, xs, h => by
    rw [List.sum_cons] at h
    -- the other sizes cut what is left
    have hrest : sizes.sum = (xs.drop n).length := by
      rw [List.length_drop]
      omega
    unfold cut
    rw [List.flatten_cons, flatten_cut sizes (xs.drop n) hrest, List.take_append_drop]

variable {points : Tensor α} {total width : Nat}

/-- The rows that are cut off for the parts have the width of the array, and together they are its
    rows. -/
theorem cut_rowLists {sizes : List Nat} {inner : Shape} (hpoints : points.shape = total :: inner)
    (h : sizes.sum = total) :
    (∀ rows ∈ cut sizes points.rowLists, ∀ row ∈ rows, row.length = inner.size) ∧
      ((cut sizes points.rowLists).flatMap fun rows => (Tensor.ofRowLists inner rows).rowLists)
        = points.rowLists := by
  have hflatten : (cut sizes points.rowLists).flatten = points.rowLists :=
    flatten_cut _ _ (by rw [h, Tensor.length_rowLists hpoints])
  have hwidth : ∀ rows ∈ cut sizes points.rowLists, ∀ row ∈ rows, row.length = inner.size := by
    intro rows hrows row hrow
    apply Tensor.length_of_mem_rowLists hpoints
    rw [← hflatten]
    exact List.mem_flatten.2 ⟨rows, hrows, hrow⟩
  refine ⟨hwidth, ?_⟩
  rw [List.flatMap_def, List.map_congr_left fun rows hrows =>
    Tensor.rowLists_ofRowLists (hwidth rows hrows), List.map_id', hflatten]

theorem isSplit_parts {sizes : List Nat} (hpoints : points.shape = [total, width])
    (h : sizes.sum = total) : IsSplit width (parts points sizes) points := by
  unfold parts
  split
  · exact ⟨by simp, fun p hp => ⟨total, width, by rw [List.mem_singleton.1 hp, hpoints], .inr rfl⟩,
      by simp⟩
  · rename_i hne
    obtain ⟨hwidth, hrows⟩ := cut_rowLists hpoints h
    rw [Tensor.innerShape_of_shape hpoints]
    refine ⟨by simpa using hne, fun p hp => ?_, ?_⟩
    · obtain ⟨rows, hrows, rfl⟩ := List.mem_map.1 hp
      exact ⟨_, width, Tensor.shape_ofRowLists (hwidth rows hrows), .inr rfl⟩
    · rw [List.flatMap_map, hrows]

/-- The partitions of a matrix are a split of it, whatever was asked for. -/
theorem isSplit_partitions {n : Quantity} {chunk : Option Nat} {made : List (Tensor α)}
    (hpoints : points.shape = [total, width]) (h : partitions points n chunk = .ok made) :
    IsSplit width made points := by
  unfold partitions at h
  obtain ⟨total', htotal, h⟩ := bind_eq_ok.1 h
  rw [Tensor.rowCount_of_shape hpoints] at htotal
  cases htotal
  cases chunk with
  | some size =>
    cases pure_eq_ok.1 h
    exact isSplit_parts hpoints (sum_chunkSizes _ _)
  | none =>
    obtain ⟨m, -, h⟩ := bind_eq_ok.1 h
    dsimp only at h
    split at h
    · obtain ⟨_, hthrow, -⟩ := bind_eq_ok.1 h
      cases hthrow
    · split at h
      · obtain ⟨_, hthrow, -⟩ := bind_eq_ok.1 h
        cases hthrow
      · cases pure_eq_ok.1 h
        exact isSplit_parts hpoints (sum_evenSizes _ _)

end Split

/-- What an estimator prepares is a split, whether centroids are given or chosen. -/
theorem isSplit_prepare [Scalar α] {points initial : Tensor α} {parts : List (Tensor α)}
    {size width : Nat} (hpoints : points.shape = [size, width]) {e : Estimator α}
    {given : Option (Tensor α)} (h : e.prepare points given = .ok (parts, initial)) :
    IsSplit width parts points := by
  unfold Estimator.prepare at h
  dsimp only at h
  rw [if_neg (by simp [Tensor.rank_of_shape hpoints])] at h
  -- the points are split after the centroids are known
  obtain ⟨made, hmade, rfl⟩ : ∃ made, Split.partitions points e.plan.execution.partitions
      e.plan.execution.chunk = .ok made ∧ made = parts := by
    cases given with
    | some _ | none =>
      obtain ⟨_, -, h⟩ := bind_eq_ok.1 h
      obtain ⟨made, hmade, h⟩ := bind_eq_ok.1 h
      exact ⟨made, hmade, congrArg Prod.fst (pure_eq_ok.1 h)⟩
  exact Split.isSplit_partitions hpoints hmade

end ClusterRounds
