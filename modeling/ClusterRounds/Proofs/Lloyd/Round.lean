/-
  ClusterRounds.Proofs.Lloyd.Round

  One round over partitions is one round over all points. The partials of the partitions
  hold the members of each label, part by part; merged and averaged they give the means
  of all members, which the collector puts in their places. The change of the centroids
  and the answer of the criterion follow.
-/

import ClusterRounds.Proofs.Lloyd.Merge

namespace ClusterRounds

/-! ## The collector -/

namespace Collector

variable {α : Type} {width : Nat}

/-- Means of different clusters are put in their places, all others stay. -/
theorem foldlM_place {f : Nat → List α} (hf : ∀ j, (f j).length = width) :
    ∀ (keys : List Nat) {rows : List (List α)} {filled : List Bool},
      keys.Nodup → (∀ j ∈ keys, j < rows.length ∧ filled.getD j false = false) →
      ∃ filled', (keys.map fun (j : Nat) => ((j : Int), Tensor.vector (f j))).foldlM
          (place rows.length [width]) ⟨rows, filled⟩
        = .ok ⟨rows.mapIdx fun i row => if i ∈ keys then f i else row, filled'⟩
  | [], rows, filled, _, _ => by
    refine ⟨filled, ?_⟩
    rw [List.map_nil, List.foldlM_nil, pure_eq_ok]
    congr 1
    apply List.ext_getElem (by simp)
    intro i _ _
    simp
  | j :: keys, rows, filled, hnodup, hkeys => by
    obtain ⟨hnew, hrest⟩ := List.nodup_cons.1 hnodup
    obtain ⟨hlt, hfree⟩ := hkeys j (by simp)
    have hentries : rowEntries [width] (Tensor.vector (f j)) = .ok (f j) :=
      rowEntries_of_shape (by simp [Tensor.vector, hf j])
    have hplace : place rows.length [width] ⟨rows, filled⟩ ((j : Int), Tensor.vector (f j))
        = .ok ⟨rows.set j (f j), filled.set j true⟩ :=
      place_eq_ok.2 ⟨⟨Int.natCast_nonneg j, Int.ofNat_lt.2 hlt⟩, hfree, f j, hentries, rfl⟩
    -- the places of the other means are still free
    have hkeys' : ∀ i ∈ keys, i < (rows.set j (f j)).length ∧
        (filled.set j true).getD i false = false := by
      intro i hi
      have hij : j ≠ i := fun hij => hnew (hij ▸ hi)
      obtain ⟨hlt', hfree'⟩ := hkeys i (by simp [hi])
      refine ⟨by simpa using hlt', ?_⟩
      rw [List.getD_eq_getElem?_getD, List.getElem?_set_ne hij, ← List.getD_eq_getElem?_getD]
      exact hfree'
    obtain ⟨filled', hfold⟩ := foldlM_place hf keys hrest hkeys'
    rw [List.length_set] at hfold
    refine ⟨filled', ?_⟩
    rw [List.map_cons, List.foldlM_cons, hplace]
    refine hfold.trans ?_
    congr 2
    apply List.ext_getElem (by simp)
    intro i _ _
    rw [List.getElem_mapIdx, List.getElem_mapIdx, List.getElem_set]
    by_cases hij : j = i
    · subst hij
      simp [hnew]
    · simp [hij, Ne.symm hij]

end Collector

namespace Lloyd

variable {width : Nat}

/-! ## The next centroids -/

section Means

variable {p : Partial Rat} {f : Nat → List (List Rat)}

/-- A partial is a list of the entries of its clusters. -/
theorem Holds.exists_keys (h : Holds width p f) : ∃ keys : List Nat, keys.Nodup ∧
    (∀ j, j ∈ keys ↔ f j ≠ []) ∧ p = keys.map fun j => entry width j (f j) := by
  have hentries : p = (p.map fun e => e.1.toNat).map fun j => entry width j (f j) := by
    rw [List.map_map]
    refine (List.map_id p).symm.trans (List.map_congr_left fun e he => ?_)
    obtain ⟨j, -, rfl⟩ := h.entries e he
    rfl
  have hkeys : p.map (·.1) = (p.map fun e => e.1.toNat).map fun (j : Nat) => (j : Int) := by
    conv_lhs => rw [hentries]
    rw [List.map_map]
    rfl
  refine ⟨p.map fun e => e.1.toNat, ?_, fun j => ?_, hentries⟩
  · have hnodup := h.nodup
    rw [hkeys] at hnodup
    exact List.Pairwise.of_map _ (fun _ _ hne heq => hne (congrArg _ heq)) hnodup
  · rw [← h.mem_keys, hkeys, List.mem_map_of_injective Nat.cast_injective]

theorem mean_entry {j : Nat} {points : List (List Rat)} (h : points ≠ []) :
    (entry width j points).2.mean = .ok ((j : Int), Tensor.vector (mean width points)) := by
  have hpos : ¬ ((points.length : Int) ≤ 0) := by
    have := List.length_pos_iff.2 h
    omega
  unfold Accumulator.mean entry
  dsimp only
  rw [if_neg hpos]
  congr 2
  apply Tensor.ext
  · simp [Tensor.map, Tensor.vector, mean]
  · simp [Tensor.map, Tensor.vector, mean, Scalar.ofInt]

/-- The means of the members, in their places. -/
theorem collect_means (h : Holds width p f) {centroids : Tensor Rat} {k : Nat}
    (hc : centroids.shape = [k, width]) (hf : ∀ j, f j ≠ [] → j < k) :
    ∃ means collector, p.mapM (fun e => e.2.mean) = .ok means ∧
      (Collector.ofSize k).collect means centroids
        = .ok (.ofRowLists [width] (centroids.rowLists.mapIdx fun j c =>
            if f j = [] then c else mean width (f j)), collector) := by
  obtain ⟨keys, hnodup, hkeys, rfl⟩ := h.exists_keys
  have hlength : ∀ j, (mean width (f j)).length = width := fun j => by simp [mean]
  have hmeans : (keys.map fun j => entry width j (f j)).mapM (fun e => e.2.mean)
      = .ok (keys.map fun (j : Nat) => ((j : Int), Tensor.vector (mean width (f j)))) := by
    rw [mapM_eq_ok, List.forall₂_map_left_iff, List.forall₂_map_right_iff, List.forall₂_same]
    exact fun j hj => mean_entry ((hkeys j).1 hj)
  have hrows : centroids.rowLists.length = k := Tensor.length_rowLists hc
  have hfree : ∀ j ∈ keys, j < centroids.rowLists.length ∧
      (List.replicate k false).getD j false = false := by
    intro j hj
    rw [hrows]
    exact ⟨hf j ((hkeys j).1 hj), List.getD_replicate _ (hf j ((hkeys j).1 hj))⟩
  obtain ⟨filled, hfold⟩ := Collector.foldlM_place hlength keys hnodup hfree
  refine ⟨_, ⟨k, Collector.unfilled filled⟩, hmeans, ?_⟩
  unfold Collector.collect
  rw [Tensor.rowCount_of_shape hc, Tensor.innerShape_of_shape hc]
  refine bind_eq_ok.2 ⟨k, rfl, ?_⟩
  rw [if_neg (by simp [Collector.ofSize])]
  simp only [hrows, hkeys, ne_eq, ite_not] at hfold
  exact bind_eq_ok.2 ⟨_, hfold, rfl⟩

end Means

/-! ## The change of the centroids -/

section Change

theorem magnitude_eq (x : Rat) : Scalar.magnitude x = |x| := by
  show (if x < 0 then -x else x) = |x|
  split
  · rename_i h
    exact (abs_of_neg h).symm
  · rename_i h
    exact (abs_of_nonneg (not_lt.1 h)).symm

theorem larger_eq (a b : Rat) : Scalar.larger a b = max a b := by
  show (if decide (a < b) then b else a) = max a b
  by_cases h : a < b
  · simp [h, max_eq_right (le_of_lt h)]
  · simp [h, max_eq_left (not_lt.1 h)]

theorem maximum_eq {xs : List Rat} (hne : xs ≠ []) (h : ∀ x ∈ xs, 0 ≤ x) :
    Scalar.maximum xs = .ok (xs.foldl max 0) := by
  match xs, hne with
  | x :: rest, _ =>
    have hlarger : (Scalar.larger : Rat → Rat → Rat) = max := by
      funext a b
      exact larger_eq a b
    rw [Scalar.maximum, hlarger, List.foldl_cons, max_eq_right (h x (by simp))]

theorem shift_eq {old new : Tensor Rat} {k : Nat} (hold : old.shape = [k, width])
    (hnew : new.shape = [k, width]) (hk : 0 < k) (hwidth : 0 < width) :
    Quality.shift old new = .ok (change old.rowLists new.rowLists) := by
  have hne : List.zipWith (· - ·) new.entries old.entries ≠ [] := by
    rw [← List.length_pos_iff, List.length_zipWith, Tensor.length_entries_of_shape hold,
      Tensor.length_entries_of_shape hnew, min_self]
    exact Nat.mul_pos hk hwidth
  unfold Quality.shift change
  rw [Tensor.flatten_rowLists hold, Tensor.flatten_rowLists hnew]
  refine bind_eq_ok.2 ⟨_, Tensor.zipWith_of_shape _ (hnew.trans hold.symm), ?_⟩
  have habs : (Scalar.magnitude : Rat → Rat) = (|·|) := by
    funext x
    exact magnitude_eq x
  rw [habs]
  refine maximum_eq (by simpa [Tensor.zipSame] using hne) fun x hx => ?_
  obtain ⟨d, -, rfl⟩ := List.mem_map.1 hx
  exact abs_nonneg d

end Change

/-! ## The whole round -/

section Round

/-- The points are labelled part by part. -/
theorem labelled_flatMap (d : List Rat → List Rat) (parts : List (Tensor Rat)) :
    labelled d (parts.flatMap Tensor.rowLists) = parts.flatMap fun p => labelled d p.rowLists := by
  unfold labelled
  rw [List.map_flatMap]

theorem members_flatMap (d : List Rat → List Rat) (parts : List (Tensor Rat)) (j : Nat) :
    members j (labelled d (parts.flatMap Tensor.rowLists))
      = parts.flatMap fun p => members j (labelled d p.rowLists) := by
  unfold members
  rw [labelled_flatMap, List.filter_flatMap, List.map_flatMap]

theorem cost_flatMap (centroids : List (List Rat)) (d : List Rat → List Rat)
    (parts : List (Tensor Rat)) :
    cost centroids (labelled d (parts.flatMap Tensor.rowLists))
      = (parts.map fun p => cost centroids (labelled d p.rowLists)).sum := by
  unfold cost
  rw [labelled_flatMap, List.map_flatMap, List.flatMap_def, List.sum_flatten, List.map_map]
  rfl

variable {task : Task Rat} {row : Tensor Rat → List Rat → List Rat} {mark : Mark Rat}

/-- The criterion answers as the reference does. -/
theorem ask_eq (settings : Settings) (round : Int) {next previous : Tensor Rat} {moved : Rat}
    (hmoved : Quality.shift previous next = .ok moved) :
    ((Criterion.ofSettings settings).ask round next (some previous)).1
        = .ok (decide ((settings.maxRounds : Int) ≤ round)
            || settings.tolerance.any (Scalar.isBelow moved)) ∧
      ((Criterion.ofSettings settings).ask round next (some previous)).2.hasConverged
        = settings.tolerance.any (Scalar.isBelow moved) := by
  rw [← Criterion.remembering_none, Criterion.ask_remembering, hmoved]
  cases ht : settings.tolerance with
  | none => simp [Criterion.remembering, ht, Criterion.hasConverged]
  | some t =>
    simp [Criterion.remembering, ht, Criterion.hasConverged, Criterion.anyConverged]

theorem length_of_mem_next {centroids : List (List Rat)} {xs : List (Nat × List Rat)}
    (h : ∀ c ∈ centroids, c.length = width) : ∀ c ∈ next width centroids xs, c.length = width := by
  intro c hc
  obtain ⟨j, hj, rfl⟩ := List.mem_mapIdx.1 hc
  split
  · exact h _ (List.getElem_mem hj)
  · simp [mean]

/-- The next centroids are a matrix like those before. -/
theorem matrix_next {centroids : Tensor Rat} {k : Nat} (hc : centroids.shape = [k, width])
    (xs : List (Nat × List Rat)) :
    (Tensor.ofRowLists [width] (next width centroids.rowLists xs)).shape = [k, width] ∧
      (Tensor.ofRowLists [width] (next width centroids.rowLists xs)).rowLists
        = next width centroids.rowLists xs := by
  have hrows : ∀ c ∈ next width centroids.rowLists xs, c.length = Shape.size [width] := by
    simpa using length_of_mem_next fun c h => by simpa using Tensor.length_of_mem_rowLists hc h
  refine ⟨?_, Tensor.rowLists_ofRowLists hrows⟩
  rw [Tensor.shape_ofRowLists hrows, next, List.length_mapIdx, Tensor.length_rowLists hc]

/-- What a partition makes of its points. -/
def outputOf (k width : Nat) (centroids : List (List Rat)) (xs : List (Nat × List Rat)) :
    PartitionOutput Rat :=
  ⟨partialOf k width xs, cost centroids xs, xs.map fun e => (e.1 : Int)⟩

section Parts

variable (hm : task.measure.RowByRow row) {centroids : Tensor Rat}
  (hshape : task.Shaped width centroids)

include hm hshape

theorem outputs_eq : task.outputs centroids = .ok (task.points.map fun p =>
    outputOf task.settings.k width centroids.rowLists (labelled (row centroids) p.rowLists)) := by
  refine mapM_eq_ok_map fun p hp => ?_
  obtain ⟨n, w, hs, hw⟩ := hshape.points p hp
  exact contribution_eq hm task.settings.k_pos hshape.centroids hs hw 0

theorem label_lt {p : Tensor Rat} (hp : p ∈ task.points) :
    ∀ e ∈ labelled (row centroids) p.rowLists, e.1 < task.settings.k := by
  obtain ⟨n, w, hs, hw⟩ := hshape.points p hp
  exact (nearest_eq hm task.settings.k_pos hshape.centroids hs hw 0).2

/-- The next centroids over partitions are those over all points. -/
theorem nextCentroids_eq {outputs : List (PartitionOutput Rat)}
    (houtputs : task.outputs centroids = .ok outputs) :
    nextCentroids task.settings.k outputs centroids = .ok (.ofRowLists [width]
      (next width centroids.rowLists
        (labelled (row centroids) (task.points.flatMap Tensor.rowLists)))) := by
  rw [outputs_eq hm hshape] at houtputs
  cases houtputs
  -- each partial holds the members among the points of its own partition
  have hparts : List.Forall₂ (Holds width)
      (task.points.map fun p =>
        partialOf task.settings.k width (labelled (row centroids) p.rowLists))
      (task.points.map fun p j => members j (labelled (row centroids) p.rowLists)) := by
    rw [List.forall₂_map_left_iff, List.forall₂_map_right_iff, List.forall₂_same]
    exact fun p hp => holds_partialOf (label_lt hm hshape hp)
  obtain ⟨merged, hmerged, hholds⟩ := holds_reduce hparts
  -- together they are the members among all points
  have hall := hholds.congr (g := fun j =>
      members j (labelled (row centroids) (task.points.flatMap Tensor.rowLists))) fun j => by
    rw [members_flatMap, List.flatMap_map]
  obtain ⟨means, collector, hmeans, hcollect⟩ := collect_means hall hshape.centroids fun j hj => by
    obtain ⟨x, hx⟩ := List.exists_mem_of_ne_nil _ hj
    rw [members_flatMap, List.mem_flatMap] at hx
    obtain ⟨p, hp, hx⟩ := hx
    exact label_lt hm hshape hp _ (mem_of_mem_members hx)
  refine nextCentroids_eq_ok.2 ⟨merged, means, collector, ?_, hmeans, hcollect⟩
  rw [List.map_map]
  exact hmerged

end Parts

/-- A round over partitions is a round over all their points, whatever criterion is asked then. -/
theorem turnAsking_eq (hm : task.measure.RowByRow row)
    (hshape : task.Shaped width mark.centroids) (hwidth : 0 < width) (criterion : Criterion Rat) :
    task.turnAsking criterion mark =
      let t := turn task.settings row width (task.points.flatMap Tensor.rowLists) mark
      let asked := criterion.ask (mark.epoch + 1) t.next (some mark.centroids)
      asked.1.map fun stop =>
        { t with
          converged := asked.2.hasConverged || (stop && mark.epoch + 1 < task.settings.maxRounds)
          stop } := by
  have houtputs := outputs_eq hm hshape
  have hnext := nextCentroids_eq hm hshape houtputs
  have hshift := shift_eq hshape.centroids ((shape_nextCentroids hnext).trans hshape.centroids)
    task.settings.k_pos hwidth
  have hinertia : (((task.points.map fun p => outputOf task.settings.k width
        mark.centroids.rowLists (labelled (row mark.centroids) p.rowLists)).map (·.inertia)).foldl
          (· + ·) 0)
      = cost mark.centroids.rowLists
          (labelled (row mark.centroids) (task.points.flatMap Tensor.rowLists)) := by
    rw [← List.sum_eq_foldl, List.map_map, cost_flatMap]
    rfl
  have hlabels : ((task.points.map fun p => outputOf task.settings.k width
        mark.centroids.rowLists (labelled (row mark.centroids) p.rowLists)).map (·.labels)).flatten
      = (labelled (row mark.centroids) (task.points.flatMap Tensor.rowLists)).map
          fun e => (e.1 : Int) := by
    rw [labelled_flatMap, List.map_flatMap, List.flatMap_def, List.map_map]
    rfl
  rw [Task.turnAsking_of_ok houtputs hnext hshift, hinertia, hlabels]
  rfl

/-- With the criterion of the settings it is the round of the reference. -/
theorem turn_eq (hm : task.measure.RowByRow row) (hshape : task.Shaped width mark.centroids)
    (hwidth : 0 < width) :
    task.turn mark
      = .ok (turn task.settings row width (task.points.flatMap Tensor.rowLists) mark) := by
  have hnext := nextCentroids_eq hm hshape (outputs_eq hm hshape)
  have hshift := shift_eq hshape.centroids ((shape_nextCentroids hnext).trans hshape.centroids)
    task.settings.k_pos hwidth
  rw [(matrix_next hshape.centroids _).2] at hshift
  obtain ⟨hstop, hconverged⟩ := ask_eq task.settings (mark.epoch + 1) hshift
  -- a run that has not settled has not converged, whatever stops it
  have hbound : ∀ settled : Bool,
      (settled || ((decide ((task.settings.maxRounds : Int) ≤ mark.epoch + 1) || settled)
        && decide (mark.epoch + 1 < task.settings.maxRounds))) = settled := by
    intro settled
    cases settled with
    | true => rfl
    | false => simp
  unfold Task.turn
  rw [turnAsking_eq hm hshape hwidth]
  dsimp only [turn]
  rw [hstop]
  dsimp only [Except.map]
  rw [hconverged, hbound]

end Round

end Lloyd
end ClusterRounds
