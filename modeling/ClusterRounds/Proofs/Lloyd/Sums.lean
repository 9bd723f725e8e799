/-
  ClusterRounds.Proofs.Lloyd.Sums

  The sums of the clusters, and what one partition brings to them. A table into which
  points are added one by one holds the totals of the labels' members; lists of points
  put together have the sum of their totals.
-/

import ClusterRounds.Proofs.Lloyd.Reference
import ClusterRounds.Proofs.Partials
import Mathlib.Data.List.Induction

namespace ClusterRounds
namespace Lloyd

/-! ## Members and totals -/

section Totals

variable {width : Nat} {j : Nat}

@[simp] theorem members_nil (j : Nat) : members j [] = [] := rfl

theorem members_append (j : Nat) (xs ys : List (Nat × List Rat)) :
    members j (xs ++ ys) = members j xs ++ members j ys := by
  simp [members]

theorem members_singleton (j : Nat) (e : Nat × List Rat) :
    members j [e] = if e.1 = j then [e.2] else [] := by
  by_cases h : e.1 = j <;> simp [members, h]

theorem length_members (j : Nat) (xs : List (Nat × List Rat)) :
    (members j xs).length = (xs.map (·.1)).count j := by
  rw [members, List.length_map, List.count, List.countP_map, List.countP_eq_length_filter]
  rfl

theorem mem_of_mem_members {xs : List (Nat × List Rat)} {x : List Rat} (h : x ∈ members j xs) :
    (j, x) ∈ xs := by
  obtain ⟨e, he, rfl⟩ := List.mem_map.1 h
  obtain ⟨hmem, hj⟩ := List.mem_filter.1 he
  have hj : e.1 = j := by simpa using hj
  exact hj ▸ hmem

@[simp] theorem length_total (width : Nat) (points : List (List Rat)) :
    (total width points).length = width := by
  simp [total]

theorem total_append (width : Nat) (ps qs : List (List Rat)) :
    total width (ps ++ qs) = List.zipWith (· + ·) (total width ps) (total width qs) := by
  unfold total
  rw [List.zipWith_map, List.zipWith_self]
  apply List.map_congr_left
  intro c _
  rw [List.map_append, List.sum_append]

theorem total_nil (width : Nat) : total width [] = List.replicate width 0 := by
  simp [total]

theorem total_singleton {x : List Rat} (h : x.length = width) : total width [x] = x := by
  unfold total
  apply List.ext_getElem (by simp [h])
  intro c hc hc'
  simp [List.getElem?_eq_getElem hc']

/-- The order of the points does not matter for their sum. -/
theorem total_perm {ps qs : List (List Rat)} (h : ps.Perm qs) : total width ps = total width qs :=
  List.map_congr_left fun c _ => (h.map (·.getD c 0)).sum_eq

theorem total_append_singleton {x : List Rat} (ps : List (List Rat)) (h : x.length = width) :
    total width (ps ++ [x]) = List.zipWith (· + ·) (total width ps) x := by
  rw [total_append, total_singleton h]

end Totals

/-! ## The local reduction -/

section Local

variable {k width : Nat} {xs : List (Nat × List Rat)}

/-- The table of sums. -/
theorem scatter_eq (hxs : ∀ e ∈ xs, e.2.length = width) :
    Aggregate.scatter (List.replicate k (List.replicate width 0)) xs
      = (List.range k).map fun j => total width (members j xs) := by
  induction xs using List.reverseRecOn with
  | nil =>
    simp only [Aggregate.scatter, List.foldl_nil, members_nil, total_nil]
    rw [List.map_const', List.length_range]
  | append_singleton xs e ih =>
    have ih := ih fun f hf => hxs f (List.mem_append_left _ hf)
    have hstep : Aggregate.scatter (List.replicate k (List.replicate width 0)) (xs ++ [e])
        = (Aggregate.scatter (List.replicate k (List.replicate width 0)) xs).modify e.1
            fun row => List.zipWith (· + ·) row e.2 := by
      unfold Aggregate.scatter
      rw [List.foldl_append]
      rfl
    rw [hstep, ih]
    apply List.ext_getElem (by simp)
    intro j hj _
    rw [List.getElem_modify]
    simp only [List.getElem_map, List.getElem_range, members_append, members_singleton]
    -- only the total of the point's own label changes
    split
    · rw [total_append_singleton _ (hxs e (by simp))]
    · rw [List.append_nil]

/-- The labels that occur, each with the total and the number of its points. -/
def partialOf (k width : Nat) (xs : List (Nat × List Rat)) : Partial Rat :=
  ((List.range k).filter fun j => members j xs ≠ []).map fun (j : Nat) =>
    ((j : Int), ⟨j, .vector (total width (members j xs)), (members j xs).length⟩)

theorem occupied_eq :
    Aggregate.occupied ((List.range k).map fun j => total width (members j xs))
        ((List.range k).map fun j => (members j xs).length)
      = partialOf k width xs := by
  have hzip : ((List.range k).map fun j => (total width (members j xs), (members j xs).length)).zipIdx
      = (List.range k).map fun j => ((total width (members j xs), (members j xs).length), j) := by
    apply List.ext_getElem (by simp)
    intro j hj _
    simp
  unfold Aggregate.occupied partialOf
  rw [List.zip_map', hzip, List.filter_map, List.map_map]
  congr 1
  apply List.filter_congr
  intro j _
  simp [List.length_pos_iff]

/-- What a partition's points bring to the sums. -/
theorem accumulate_eq {p : Tensor Rat} {n : Nat} (hp : p.shape = [n, width])
    (hpoints : xs.map (·.2) = p.rowLists) (hlabels : ∀ e ∈ xs, e.1 < k) (epoch : Int) :
    Aggregate.accumulate ⟨epoch, xs.map fun e => (e.1 : Int), p⟩ k = .ok (partialOf k width xs) := by
  have hlength : ∀ e ∈ xs, e.2.length = width := by
    intro e he
    have hmem : e.2 ∈ p.rowLists := hpoints ▸ List.mem_map.2 ⟨e, he, rfl⟩
    simpa using Tensor.length_of_mem_rowLists hp hmem
  have hrange : ∀ l ∈ xs.map fun e => (e.1 : Int), 0 ≤ l ∧ l < k := by
    intro l hl
    obtain ⟨e, he, rfl⟩ := List.mem_map.1 hl
    have := hlabels e he
    omega
  have hcount : p.shape = [(xs.map fun e => (e.1 : Int)).length, width] := by
    have hlengths := congrArg List.length hpoints
    rw [List.length_map, Tensor.length_rowLists hp] at hlengths
    rw [List.length_map, hlengths]
    exact hp
  -- every label goes with its own point
  have hpairs : (((xs.map fun e => (e.1 : Int)).map Int.toNat).zip p.rowLists) = xs := by
    rw [← hpoints, List.map_map, List.zip_map']
    simp
  have htally : Aggregate.tally k ((xs.map fun e => (e.1 : Int)).map Int.toNat)
      = (List.range k).map fun j => (members j xs).length := by
    unfold Aggregate.tally
    apply List.map_congr_left
    intro j _
    rw [length_members, List.map_map]
    rfl
  by_cases hempty : xs = []
  · subst hempty
    simp [Aggregate.accumulate, partialOf, pure, Except.pure]
  · have hne : (xs.map fun e => (e.1 : Int)) ≠ [] := by simpa using hempty
    rw [Aggregate.accumulate_eq_occupied epoch hcount hne hrange, hpairs, Int.toNat_natCast, htally,
      scatter_eq hlength, occupied_eq]

end Local

/-! ## The inertia of a partition -/

section Inertia

theorem sumSquares_eq (ds : List Rat) : Scalar.sumSquares ds = (ds.map fun d => d * d).sum := by
  -- from any sum so far
  have h : ∀ (ds : List Rat) (s : Rat),
      ds.foldl (fun s x => s + x * x) s = s + (ds.map fun d => d * d).sum := by
    intro ds
    induction ds with
    | nil => simp
    | cons d ds ih =>
      intro s
      rw [List.foldl_cons, ih, List.map_cons, List.sum_cons, add_assoc]
  have := h ds 0
  rwa [zero_add] at this

/-- Differences of matrices are differences of their rows. -/
theorem zipWith_flatten {f : Rat → Rat → Rat} :
    ∀ {as bs : List (List Rat)}, List.Forall₂ (fun a b => a.length = b.length) as bs →
      List.zipWith f as.flatten bs.flatten = (List.zipWith (List.zipWith f) as bs).flatten
  | _, _, .nil => rfl
  | _, _, .cons hab h => by
    rw [List.flatten_cons, List.flatten_cons, List.zipWith_append hab, zipWith_flatten h]
    rfl

variable {k width n : Nat} {xs : List (Nat × List Rat)} {p centroids : Tensor Rat}

/-- The centroids of the labels, one for each point. -/
theorem assigned_eq (hc : centroids.shape = [k, width]) (hlabels : ∀ e ∈ xs, e.1 < k) :
    Quality.assigned centroids (xs.map fun e => (e.1 : Int))
      = .ok (.ofRowLists [width] (xs.map fun e => centroids.rowLists.getD e.1 [])) := by
  have hlt : ∀ l ∈ xs.map (·.1), l < k := by simpa using hlabels
  have hassigned := Quality.assigned_of_lt hc hlt
  rwa [List.map_map, List.map_map] at hassigned

/-- The inertia of a partition is the cost of its points. -/
theorem inertia_eq (hp : p.shape = [n, width]) (hc : centroids.shape = [k, width])
    (hpoints : xs.map (·.2) = p.rowLists) (hlabels : ∀ e ∈ xs, e.1 < k) :
    Quality.inertia p centroids (xs.map fun e => (e.1 : Int))
      = .ok (cost centroids.rowLists xs) := by
  have hcount : xs.length = n := by
    rw [← Tensor.length_rowLists hp, ← hpoints, List.length_map]
  have hrows : ∀ row ∈ xs.map fun e => centroids.rowLists.getD e.1 [],
      row.length = Shape.size [width] := by
    intro row hrow
    obtain ⟨e, he, rfl⟩ := List.mem_map.1 hrow
    have hlt : e.1 < centroids.rowLists.length := by
      rw [Tensor.length_rowLists hc]
      exact hlabels e he
    rw [List.getD_eq_getElem _ _ hlt]
    exact Tensor.length_of_mem_rowLists hc (List.getElem_mem hlt)
  have hshape := Tensor.shape_ofRowLists hrows
  rw [List.length_map, hcount] at hshape
  unfold Quality.inertia
  refine bind_eq_ok.2 ⟨n, Tensor.rowCount_of_shape hp, ?_⟩
  split
  · rename_i hn
    rw [hn, List.length_eq_zero_iff] at hcount
    subst hcount
    rfl
  · refine bind_eq_ok.2 ⟨_, assigned_eq hc hlabels, ?_⟩
    refine bind_eq_ok.2 ⟨_, Tensor.zipWith_of_shape _ (hp.trans hshape.symm), ?_⟩
    rw [if_neg (by simp [Tensor.rank, Tensor.zipSame, hp])]
    refine pure_eq_ok.2 ?_
    -- entry by entry is row by row
    have hentries : (Tensor.zipSame (· - ·) p
          (.ofRowLists [width] (xs.map fun e => centroids.rowLists.getD e.1 []))
          (hp.trans hshape.symm)).entries
        = (xs.map fun e => List.zipWith (· - ·) e.2 (centroids.rowLists.getD e.1 [])).flatten := by
      show List.zipWith _ p.entries _ = _
      rw [← Tensor.flatten_rowLists hp, Tensor.entries_ofRowLists hrows, ← hpoints,
        zipWith_flatten, List.zipWith_map, List.zipWith_self]
      rw [List.forall₂_map_left_iff, List.forall₂_map_right_iff, List.forall₂_same]
      intro e he
      have hpoint : e.2 ∈ p.rowLists := hpoints ▸ List.mem_map.2 ⟨e, he, rfl⟩
      rw [Tensor.length_of_mem_rowLists hp hpoint, hrows _ (List.mem_map.2 ⟨e, he, rfl⟩)]
    rw [hentries, sumSquares_eq, List.map_flatten, List.sum_flatten, List.map_map, List.map_map]
    rfl

end Inertia

/-! ## All that a partition brings -/

section Contribution

variable {m : Measure Rat} {row : Tensor Rat → List Rat → List Rat} {k width n w : Nat}
  {p centroids : Tensor Rat}

theorem map_snd_labelled (distances : List Rat → List Rat) (points : List (List Rat)) :
    (labelled distances points).map (·.2) = points := by
  unfold labelled
  rw [List.map_map]
  exact List.map_id points

/-- The measure's labels are those of the reference. -/
theorem nearest_eq (hm : m.RowByRow row) (hk : 0 < k) (hc : centroids.shape = [k, width])
    (hp : p.shape = [n, w]) (hw : n = 0 ∨ w = width) (call : Nat) :
    m.nearest call p centroids = .ok ((labelled (row centroids) p.rowLists).map (·.1)) ∧
      ∀ e ∈ labelled (row centroids) p.rowLists, e.1 < k := by
  unfold Measure.nearest
  rw [Tensor.rowCount_of_shape hp]
  by_cases hn : n = 0
  · have hrows : p.rowLists = [] := (Tensor.rowLists_eq_nil_iff hp).2 hn
    rw [hn, hrows]
    exact ⟨rfl, fun e he => nomatch he⟩
  · have hw : w = width := hw.resolve_left hn
    subst hw
    have hinner : p.innerShape = centroids.innerShape := by
      rw [Tensor.innerShape_of_shape hp, Tensor.innerShape_of_shape hc]
    obtain ⟨hmatrix, hlength⟩ :=
      hm call p centroids (Tensor.rank_of_shape hp) (Tensor.rank_of_shape hc) hinner
    -- there is a centroid, so every point has a nearest one
    have hne : ∀ x ∈ p.rowLists, row centroids x ≠ [] := by
      intro x hx hnil
      have := hlength x hx
      rw [hnil, Tensor.rowTotal_of_shape hc] at this
      exact absurd this (Nat.ne_of_lt hk)
    have hlabels : Measure.labels (p.rowLists.map (row centroids))
        = .ok ((labelled (row centroids) p.rowLists).map (·.1)) := by
      unfold Measure.labels labelled
      rw [mapM_eq_ok, List.forall₂_map_left_iff, List.map_map, List.forall₂_map_right_iff,
        List.forall₂_same]
      exact fun x hx => argMin_eq (hne x hx)
    constructor
    · refine bind_eq_ok.2 ⟨n, rfl, ?_⟩
      rw [if_neg hn]
      exact bind_eq_ok.2 ⟨_, hmatrix, ofOperands_eq_ok.2 hlabels⟩
    · intro e he
      obtain ⟨x, hx, rfl⟩ := List.mem_map.1 he
      have hlt := (isFirstLeast_leastPlace (hne x hx)).lt
      rwa [hlength x hx, Tensor.rowTotal_of_shape hc] at hlt

/-- A partition brings the sums, the cost and the labels of its own points. -/
theorem contribution_eq (hm : m.RowByRow row) (hk : 0 < k) (hc : centroids.shape = [k, width])
    (hp : p.shape = [n, w]) (hw : n = 0 ∨ w = width) (call : Nat) :
    Iteration.contribution m k centroids call p
      = .ok ⟨partialOf k width (labelled (row centroids) p.rowLists),
          cost centroids.rowLists (labelled (row centroids) p.rowLists),
          (labelled (row centroids) p.rowLists).map fun e => (e.1 : Int)⟩ := by
  obtain ⟨hnearest, hlabels⟩ := nearest_eq hm hk hc hp hw call
  refine bind_eq_ok.2 ⟨_, hnearest, ?_⟩
  rw [List.map_map]
  by_cases hn : n = 0
  · have hrows : p.rowLists = [] := (Tensor.rowLists_eq_nil_iff hp).2 hn
    rw [hrows]
    simp [labelled, Iteration.output_of_no_labels, partialOf, cost]
  · have hw : w = width := hw.resolve_left hn
    subst hw
    have hpoints := map_snd_labelled (row centroids) p.rowLists
    have hne : (labelled (row centroids) p.rowLists).map (fun e => (e.1 : Int)) ≠ [] := by
      have hrows : p.rowLists ≠ [] := fun h => hn ((Tensor.rowLists_eq_nil_iff hp).1 h)
      simpa [labelled] using hrows
    refine bind_eq_ok.2 ⟨_, accumulate_eq hp hpoints hlabels 0, ?_⟩
    rw [if_neg (by simpa using hne)]
    exact bind_eq_ok.2 ⟨_, ofOperands_eq_ok.2 (inertia_eq hp hc hpoints hlabels), rfl⟩

end Contribution

end Lloyd
end ClusterRounds
