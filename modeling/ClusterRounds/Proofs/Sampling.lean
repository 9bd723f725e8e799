/-
  ClusterRounds.Proofs.Sampling

  Initial centroids as a sample of the points. A seed puts all points in one order
  (`Seeding.order_perm`), whatever the number of centroids is, and the first of this order are
  taken (`Seeding.select_int`). So no point is taken twice, a larger sample begins with the
  smaller one, a sample of all points is a rearrangement of them, and seeds count modulo the
  number of words of 64 bits. Only a number out of range and a seed that is no integer are
  refused.
-/

import ClusterRounds.Proofs.Fitting

namespace ClusterRounds

variable {α : Type} {points sample : Tensor α} {n width : Nat} {places : List Nat}

/-! ## Picked rows -/

namespace Tensor

/-- The rows of the sample are those of the points at these places, in this order. -/
def RowsAt (points : Tensor α) (places : List Nat) (sample : Tensor α) : Prop :=
  List.Forall₂ (fun i row => points.rowLists[i]? = some row) places sample.rowLists

theorem rowLists_pick (hpoints : points.shape = [n, width]) (hplaces : ∀ i ∈ places, i < n) :
    (points.pick places).rowLists = places.map fun i => points.rowLists.getD i [] := by
  have hlength : points.rowLists.length = n := length_rowLists hpoints
  have hrows : (places.filterMap fun i => points.rowLists.toArray[i]?)
      = places.map fun i => points.rowLists.getD i [] := by
    rw [← List.filterMap_eq_map]
    refine List.filterMap_congr fun i hi => ?_
    have hi : i < points.rowLists.length := hlength ▸ hplaces i hi
    simp [List.getElem?_eq_getElem hi]
  unfold pick
  dsimp only
  rw [hrows, innerShape_of_shape hpoints]
  refine rowLists_ofRowLists fun row hrow => ?_
  obtain ⟨i, hi, rfl⟩ := List.mem_map.1 hrow
  have hi : i < points.rowLists.length := hlength ▸ hplaces i hi
  rw [List.getD_eq_getElem _ _ hi]
  exact length_of_mem_rowLists hpoints (List.getElem_mem hi)

theorem rowsAt_pick (hpoints : points.shape = [n, width]) (hplaces : ∀ i ∈ places, i < n) :
    points.RowsAt places (points.pick places) := by
  rw [RowsAt, rowLists_pick hpoints hplaces, List.forall₂_map_right_iff, List.forall₂_same]
  intro i hi
  have hi : i < points.rowLists.length := length_rowLists hpoints ▸ hplaces i hi
  rw [List.getElem?_eq_getElem hi, List.getD_eq_getElem _ _ hi]

/-- All rows, each at its place. -/
theorem map_getD_range (hpoints : points.shape = [n, width]) :
    (List.range n).map (fun i => points.rowLists.getD i []) = points.rowLists := by
  have hlength : points.rowLists.length = n := length_rowLists hpoints
  refine List.ext_getElem (by rw [List.length_map, List.length_range, hlength]) fun i _ hi => ?_
  rw [List.getElem_map, List.getElem_range, List.getD_eq_getElem _ _ hi]

end Tensor

/-! ## The sample of a seed -/

namespace Seeding

variable {k : Nat} {seed : Int}

theorem select_of_le (hpoints : points.shape = [n, width]) (hk : 1 ≤ k) (hle : k ≤ n) (seed : Int) :
    select points (.int k) (.int seed) = .ok (points.pick ((order seed n).take k)) := by
  rw [select_int hpoints, if_neg (by omega), if_neg (by omega), Int.toNat_natCast]

theorem lt_of_mem_take_order {i : Nat} (h : i ∈ (order seed n).take k) : i < n :=
  lt_of_mem_order (List.mem_of_mem_take h)

theorem nodup_order (seed : Int) (n : Nat) : (order seed n).Nodup :=
  (order_perm seed n).nodup_iff.2 List.nodup_range

theorem rowLists_select (hpoints : points.shape = [n, width]) (hk : 1 ≤ k) (hle : k ≤ n)
    (h : select points (.int k) (.int seed) = .ok sample) :
    sample.rowLists = ((order seed n).take k).map fun i => points.rowLists.getD i [] := by
  rw [select_of_le hpoints hk hle, Except.ok.injEq] at h
  rw [← h, Tensor.rowLists_pick hpoints fun i => lt_of_mem_take_order]

/-- The order of a seed is that of its remainder. -/
theorem order_congr {seed' : Int} (h : seed % 2 ^ 64 = seed' % 2 ^ 64) (n : Nat) :
    order seed n = order seed' n := by
  rw [order, order, reduce, reduce, h]

/-- A number out of range, or a seed that is no integer. -/
theorem select_int_fails_iff (hpoints : points.shape = [n, width]) (k : Int) (seed : Value) :
    (∃ f, select points (.int k) seed = .error f) ↔ k < 1 ∨ n < k ∨ ∀ s, seed ≠ .int s := by
  rw [select_int hpoints]
  by_cases hk : k < 1
  · exact iff_of_true ⟨_, if_pos hk⟩ (.inl hk)
  · by_cases hle : n < k
    · exact iff_of_true ⟨_, by rw [if_neg hk, if_pos hle]⟩ (.inr (.inl hle))
    · rw [if_neg hk, if_neg hle]
      cases seed with
      | int s => exact iff_of_false (fun ⟨_, h⟩ => nomatch h) (by simp [hk, hle])
      | null | bool _ | float _ | text _ | list _ | record _ =>
        exact iff_of_true ⟨_, rfl⟩ (.inr (.inr fun _ h => nomatch h))

theorem isConfiguration_of_select (hpoints : points.shape = [n, width]) {k : Int} {seed : Value}
    {f : Failure} (h : select points (.int k) seed = .error f) : f.IsConfiguration := by
  rw [select_int hpoints] at h
  split at h
  · exact ⟨_, (Except.error.inj h).symm⟩
  · split at h
    · exact ⟨_, (Except.error.inj h).symm⟩
    · split at h
      · cases h
      · exact ⟨_, (Except.error.inj h).symm⟩

end Seeding

/-- A sample of some points out of a matrix consists of its rows at as many places, none of which
    comes twice. Under one seed a sample begins with every smaller one, and a sample of all points
    has them all, each as often as the matrix; seeds of one remainder give the same samples. Nothing
    else than a number out of range or a seed that is no integer is refused, and it is reported as
    an error of the configuration. -/
theorem samples_are_without_replacement (hpoints : points.shape = [n, width]) :
    (∀ (k : Nat) (seed : Int), 1 ≤ k → k ≤ n → ∃ (places : List Nat) (sample : Tensor α),
      Seeding.select points (.int k) (.int seed) = .ok sample ∧ sample.shape = [k, width] ∧
        places.length = k ∧ places.Nodup ∧ points.RowsAt places sample) ∧
    (∀ (k₁ k₂ : Nat) (seed : Int) (sample₁ sample₂ : Tensor α), 1 ≤ k₁ → k₁ ≤ k₂ → k₂ ≤ n →
      Seeding.select points (.int k₁) (.int seed) = .ok sample₁ →
      Seeding.select points (.int k₂) (.int seed) = .ok sample₂ →
      sample₁.rowLists = sample₂.rowLists.take k₁) ∧
    (∀ (seed : Int) (sample : Tensor α), 1 ≤ n →
      Seeding.select points (.int n) (.int seed) = .ok sample →
      sample.rowLists.Perm points.rowLists) ∧
    (∀ (k : Int) (seed seed' : Int), seed % 2 ^ 64 = seed' % 2 ^ 64 →
      Seeding.select points (.int k) (.int seed) = Seeding.select points (.int k) (.int seed')) ∧
    ∀ (k : Int) (seed : Value),
      ((∃ f, Seeding.select points (.int k) seed = .error f) ↔
        k < 1 ∨ n < k ∨ ∀ s, seed ≠ .int s) ∧
      ∀ f, Seeding.select points (.int k) seed = .error f → f.IsConfiguration := by
  refine ⟨fun k seed hk hle => ?_, fun k₁ k₂ seed sample₁ sample₂ hk hle hmost h₁ h₂ => ?_,
    fun seed sample hn h => ?_, fun k seed seed' hseed => ?_, fun k seed => ?_⟩
  · have hplaces : ∀ i ∈ (Seeding.order seed n).take k, i < n :=
      fun i => Seeding.lt_of_mem_take_order
    have hlength : ((Seeding.order seed n).take k).length = k := by
      rw [List.length_take, Seeding.length_order, Nat.min_eq_left hle]
    refine ⟨_, _, Seeding.select_of_le hpoints hk hle seed, ?_, hlength, ?_, ?_⟩
    · rw [Tensor.shape_pick hpoints hplaces, hlength]
    · exact (Seeding.nodup_order seed n).sublist (List.take_sublist k _)
    · exact Tensor.rowsAt_pick hpoints hplaces
  · rw [Seeding.rowLists_select hpoints hk (Nat.le_trans hle hmost) h₁,
      Seeding.rowLists_select hpoints (Nat.le_trans hk hle) hmost h₂, ← List.map_take,
      List.take_take, Nat.min_eq_left hle]
  · -- all of the order is taken
    have hall : (Seeding.order seed n).take n = Seeding.order seed n :=
      List.take_of_length_le (Nat.le_of_eq (Seeding.length_order seed n))
    rw [Seeding.rowLists_select hpoints hn (Nat.le_refl n) h, hall]
    have hperm := (Seeding.order_perm seed n).map fun i => points.rowLists.getD i []
    rwa [Tensor.map_getD_range hpoints] at hperm
  · rw [Seeding.select_int hpoints, Seeding.select_int hpoints]
    dsimp only
    rw [Seeding.order_congr hseed]
  · exact ⟨Seeding.select_int_fails_iff hpoints k seed,
      fun f => Seeding.isConfiguration_of_select hpoints⟩

namespace Seeding.Sample

/-- Three points on a line, two of which are the same. -/
def threePoints : Tensor Rat := ⟨[3, 1], [4, 7, 4], rfl⟩

end Seeding.Sample

/-- Two of three points under a negative seed, as under the seed that it comes to. -/
theorem samples_are_without_replacement_sample :
    ∃ (places : List Nat) (sample : Tensor Rat),
      Seeding.select Seeding.Sample.threePoints (.int 2) (.int (-1)) = .ok sample ∧
        Seeding.select Seeding.Sample.threePoints (.int 2) (.int (2 ^ 64 - 1)) = .ok sample ∧
        places.length = 2 ∧ places.Nodup ∧ Seeding.Sample.threePoints.RowsAt places sample := by
  have hshape : Seeding.Sample.threePoints.shape = [3, 1] := rfl
  obtain ⟨hsample, -, -, hseeds, -⟩ := samples_are_without_replacement hshape
  obtain ⟨places, sample, hselect, -, hlength, hnodup, hrows⟩ :=
    hsample 2 (-1) (by decide) (by decide)
  exact ⟨places, sample, hselect, (hseeds 2 (-1) (2 ^ 64 - 1) (by decide)).symm.trans hselect,
    hlength, hnodup, hrows⟩

end ClusterRounds
