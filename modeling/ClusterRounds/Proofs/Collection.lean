/-
  ClusterRounds.Proofs.Collection

  What the collector makes of the means of a round, whichever clusters they claim to be of. It
  refuses them exactly if one of them has no place of its own (`Collector.collect_fills_places`);
  otherwise every place is told by the one mean of its cluster, so that the order in which
  the means come does not matter, and the places without a mean stay as they were. Means that
  are refused change nothing.
-/

import ClusterRounds.Proofs.Retention

namespace ClusterRounds

variable {α : Type}

namespace Collector

/-! ## Means that have places -/

/-- Every mean is of one of `k` clusters, and no two are of the same one. -/
structure Fits (k : Int) (means : List (Int × Tensor α)) : Prop where
  inside : ∀ e ∈ means, 0 ≤ e.1 ∧ e.1 < k
  nodup : (means.map (·.1)).Nodup

section Placing

variable {k : Int} {width : Nat} {p done : Progress α} {means means' : List (Int × Tensor α)}

theorem Fits.perm (h : Fits k means) (hperm : means.Perm means') : Fits k means' :=
  ⟨fun e he => h.inside e (hperm.mem_iff.2 he), (hperm.map (·.1)).nodup_iff.1 h.nodup⟩

/-- What does not fit is a mean outside, or two of one cluster. -/
theorem not_fits_iff : ¬ Fits k means ↔
    (∃ e ∈ means, e.1 < 0 ∨ k ≤ e.1) ∨ ¬ (means.map (·.1)).Nodup := by
  constructor
  · intro h
    by_contra hnone
    push Not at hnone
    exact h ⟨hnone.1, hnone.2⟩
  · rintro (⟨e, he, hout⟩ | hdouble) h
    · have := h.inside e he
      omega
    · exact hdouble h.nodup

/-- Means that have all been put in their places fit, and their places had been free. -/
theorem fits_of_foldlM_place (h : means.foldlM (place k [width]) p = .ok done)
    (hk : k ≤ p.filled.length) :
    Fits k means ∧ ∀ e ∈ means, p.filled.getD e.1.toNat false = false := by
  induction means generalizing p with
  | nil => exact ⟨⟨List.forall_mem_nil _, List.nodup_nil⟩, List.forall_mem_nil _⟩
  | cons e means ih =>
    rw [List.foldlM_cons] at h
    obtain ⟨mid, hmid, h⟩ := bind_eq_ok.1 h
    obtain ⟨hin, hfree, row, -, rfl⟩ := place_eq_ok.1 hmid
    obtain ⟨hfits, hfree'⟩ := ih h (by rwa [List.length_set])
    -- no later mean goes to the place that has just been filled
    have hother : ∀ d ∈ means, e.1.toNat ≠ d.1.toNat := by
      intro d hd heq
      have hset := hfree' d hd
      rw [← heq, List.getD_eq_getElem?_getD, List.getElem?_set_self (by omega)] at hset
      cases hset
    refine ⟨⟨List.forall_mem_cons.2 ⟨hin, hfits.inside⟩, List.nodup_cons.2 ⟨?_, hfits.nodup⟩⟩,
      List.forall_mem_cons.2 ⟨hfree, fun d hd => ?_⟩⟩
    · intro hmem
      obtain ⟨d, hd, heq⟩ := List.mem_map.1 hmem
      exact hother d hd (congrArg Int.toNat heq.symm)
    · have hset := hfree' d hd
      rwa [List.getD_eq_getElem?_getD, List.getElem?_set_ne (hother d hd),
        ← List.getD_eq_getElem?_getD] at hset

/-- A mean that has the shape of a row is only refused for its cluster. -/
theorem place_eq_error {e : Int × Tensor α} (he : e.2.shape = [width]) {f : Failure}
    (h : place k [width] p e = .error f) : ∃ fault, f = .argument fault := by
  unfold place at h
  dsimp only at h
  rw [rowEntries_of_shape he] at h
  split at h
  · cases h
    exact ⟨_, rfl⟩
  · split at h
    · cases h
      exact ⟨_, rfl⟩
    · cases h

theorem foldlM_place_eq_error (hmeans : ∀ e ∈ means, e.2.shape = [width]) {f : Failure}
    (h : means.foldlM (place k [width]) p = .error f) : ∃ fault, f = .argument fault := by
  induction means generalizing p with
  | nil => cases h
  | cons e means ih =>
    obtain ⟨he, hmeans⟩ := List.forall_mem_cons.1 hmeans
    rw [List.foldlM_cons] at h
    rcases bind_eq_error.1 h with hplace | ⟨mid, -, hrest⟩
    · exact place_eq_error he hplace
    · exact ih hmeans hrest

end Placing

/-! ## The whole collection -/

section Collecting

variable {c : Collector} {previous : Tensor α} {n width : Nat} {means : List (Int × Tensor α)}
  (hprevious : previous.shape = [n, width]) (hmeans : ∀ e ∈ means, e.2.shape = [width])

include hprevious

/-- A collection is a check of the number of rows, and then puts one mean after the other. -/
theorem collect_eq (means : List (Int × Tensor α)) : c.collect means previous =
    if (n : Int) ≠ c.k then .error (.argument (.previousCount c.k n))
    else (means.foldlM (place c.k [width]) ⟨previous.rowLists, List.replicate n false⟩).map fun done =>
      (.ofRowLists [width] done.rows, ⟨c.k, unfilled done.filled⟩) := by
  unfold collect
  rw [Tensor.rowCount_of_shape hprevious, Tensor.innerShape_of_shape hprevious]
  show (if (n : Int) ≠ c.k then _ else _) = _
  split
  · rfl
  · cases means.foldlM (place c.k [width]) ⟨previous.rowLists, List.replicate n false⟩ <;> rfl

include hmeans

/-- Means that fit are collected. -/
theorem exists_collect (hk : (n : Int) = c.k) (hfits : Fits c.k means) :
    ∃ next c', c.collect means previous = .ok (next, c') := by
  have hplaces : ∀ e ∈ means, 0 ≤ e.1 ∧ e.1 < ((n : Nat) : Int) ∧ e.2.shape = [width] := fun e he =>
    ⟨(hfits.inside e he).1, hk ▸ (hfits.inside e he).2, hmeans e he⟩
  have hvacant : ∀ e ∈ means, (List.replicate n false).getD e.1.toNat false = false := fun e he =>
    List.getD_replicate _ (by have := hplaces e he; omega)
  obtain ⟨done, hdone⟩ : ∃ done,
      means.foldlM (place n [width]) ⟨previous.rowLists, List.replicate n false⟩ = .ok done :=
    exists_foldlM_place hfits.nodup hplaces hvacant
  rw [collect_eq hprevious, if_neg (not_not.2 hk), ← hk, hdone]
  exact ⟨_, _, rfl⟩

/-- All others are refused. -/
theorem collect_refuses (h : (n : Int) ≠ c.k ∨ ¬ Fits c.k means) :
    ∃ fault, c.collect means previous = .error (.argument fault) := by
  rw [collect_eq hprevious]
  by_cases hk : (n : Int) = c.k
  · rw [if_neg (not_not.2 hk)]
    cases hfold : means.foldlM (place c.k [width]) ⟨previous.rowLists, List.replicate n false⟩ with
    | ok done =>
      have hfits := (fits_of_foldlM_place hfold (by simp [hk])).1
      exact absurd hfits (h.resolve_left (not_not.2 hk))
    | error f =>
      obtain ⟨fault, rfl⟩ := foldlM_place_eq_error hmeans hfold
      exact ⟨fault, rfl⟩
  · rw [if_pos hk]
    exact ⟨_, rfl⟩

/-- Only means that fit are collected. -/
theorem fits_of_collect {next : Tensor α} {c' : Collector}
    (h : c.collect means previous = .ok (next, c')) : (n : Int) = c.k ∧ Fits c.k means := by
  by_contra hnot
  rw [not_and_or] at hnot
  obtain ⟨fault, hfault⟩ := collect_refuses hprevious hmeans hnot
  rw [hfault] at h
  cases h

/-- Out of means in another order the same centroids are made, and the same clusters are empty. -/
theorem collect_perm {means' : List (Int × Tensor α)} {next : Tensor α} {c' : Collector}
    (h : c.collect means previous = .ok (next, c')) (hperm : means.Perm means') :
    c.collect means' previous = .ok (next, c') := by
  have hmeans' : ∀ e ∈ means', e.2.shape = [width] := fun e he => hmeans e (hperm.mem_iff.2 he)
  obtain ⟨hk, hfits⟩ := fits_of_collect hprevious hmeans h
  obtain ⟨next', c'', h'⟩ := exists_collect hprevious hmeans' hk (hfits.perm hperm)
  obtain ⟨hshape, hrows, hempty⟩ := collect_spec hprevious hfits.nodup hmeans h
  obtain ⟨hshape', hrows', hempty'⟩ := collect_spec hprevious (hfits.perm hperm).nodup hmeans' h'
  have hids : ∀ i, i ∈ means'.map (·.1) ↔ i ∈ means.map (·.1) := fun i => (hperm.map _).mem_iff.symm
  -- both have the row of the one mean of each cluster, or the previous one
  have hsame : next'.rowLists = next.rowLists := by
    apply List.ext_getElem?
    intro j
    by_cases hj : j < n
    · by_cases hmem : (j : Int) ∈ means.map (·.1)
      · obtain ⟨⟨_, mean⟩, he, rfl⟩ := List.mem_map.1 hmem
        rw [(hrows j hj).2 mean he, (hrows' j hj).2 mean (hperm.mem_iff.1 he)]
      · rw [(hrows j hj).1 hmem, (hrows' j hj).1 fun hmem' => hmem ((hids _).1 hmem')]
    · rw [List.getElem?_eq_none, List.getElem?_eq_none]
      · rw [Tensor.length_rowLists hshape]
        exact Nat.le_of_not_lt hj
      · rw [Tensor.length_rowLists hshape']
        exact Nat.le_of_not_lt hj
  have hnext : next' = next := by
    rw [← Tensor.ofRowLists_rowLists hshape', hsame, Tensor.ofRowLists_rowLists hshape]
  have hcollector : c'' = c' := by
    obtain ⟨k, empty⟩ := c'
    obtain ⟨k', empty'⟩ := c''
    obtain rfl : k = c.k := k_of_collect h
    obtain rfl : k' = c.k := k_of_collect h'
    rw [show empty' = empty from hempty'.trans ((missing_congr hids).trans hempty.symm)]
  rw [h', hnext, hcollector]

end Collecting

end Collector

/-- Where the means of a round do not give the next centroids, nothing of the session has changed. -/
theorem Iteration.update_keeps [Scalar α] (outputs : List (PartitionOutput α)) (centroids : Tensor α)
    (s : Session α) : (update outputs centroids).Ends s (fun _ _ => True) (fun _ s' => s' = s) := by
  simp only [update, Step.ends_bind, Step.ends_get]
  refine Step.ends_ofOutcome_of (fun merged _ => ?_) fun _ _ => rfl
  refine Step.ends_ofOutcome_of (fun means _ => ?_) fun _ _ => rfl
  refine Step.ends_ofOutcome_of (fun collected _ => ?_) fun _ _ => rfl
  rw [Step.ends_set]
  split
  · exact True.intro
  · exact True.intro

/-- Means with the width of the previous centroids are refused exactly if these are not one for each
    cluster, or a mean is of no cluster, or two are of the same one. Otherwise each mean comes to
    stand in the place of its cluster, all other centroids stay as they were, and the clusters
    without a mean are remembered, ascending; and so it is for the means in any other order. A round
    whose means are refused leaves the session, and so the clusters that are remembered in it, as
    it was. -/
theorem means_fill_their_places {c : Collector} {previous : Tensor α} {n width : Nat}
    {means : List (Int × Tensor α)} (hprevious : previous.shape = [n, width])
    (hmeans : ∀ e ∈ means, e.2.shape = [width]) :
    ((∃ fault, c.collect means previous = .error (.argument fault)) ↔
      (n : Int) ≠ c.k ∨ (∃ e ∈ means, e.1 < 0 ∨ c.k ≤ e.1) ∨ ¬ (means.map (·.1)).Nodup) ∧
    ((n : Int) = c.k → (∀ e ∈ means, 0 ≤ e.1 ∧ e.1 < c.k) → (means.map (·.1)).Nodup →
      ∃ next, next.shape = [n, width] ∧
        (∀ j < n, (∀ mean, ((j : Int), mean) ∈ means → next.rowLists[j]? = some mean.entries) ∧
          ((j : Int) ∉ means.map (·.1) → next.rowLists[j]? = previous.rowLists[j]?)) ∧
        ∀ means', means.Perm means' → c.collect means' previous
          = .ok (next, ⟨c.k, Collector.missing n (means.map (·.1))⟩)) ∧
    ∀ [Scalar α] (outputs : List (PartitionOutput α)) (s : Session α),
      (Iteration.update outputs previous).Ends s (fun _ _ => True) (fun _ s' => s' = s) := by
  refine ⟨?_, fun hk hinside hnodup => ?_, fun outputs s => Iteration.update_keeps outputs previous s⟩
  · rw [← Collector.not_fits_iff]
    refine ⟨fun ⟨fault, hfault⟩ => ?_, Collector.collect_refuses hprevious hmeans⟩
    by_contra hfits
    rw [not_or, not_not, not_not] at hfits
    obtain ⟨next, c', hok⟩ := Collector.exists_collect hprevious hmeans hfits.1 hfits.2
    rw [hfault] at hok
    cases hok
  · obtain ⟨next, c', hok⟩ := Collector.exists_collect hprevious hmeans hk ⟨hinside, hnodup⟩
    obtain ⟨hshape, hrows, hempty⟩ := Collector.collect_spec hprevious hnodup hmeans hok
    refine ⟨next, hshape, fun j hj => (hrows j hj).symm, fun means' hperm => ?_⟩
    have hcollector : c' = ⟨c.k, Collector.missing n (means.map (·.1))⟩ := by
      rw [← Collector.k_of_collect hok, ← hempty]
    rw [← hcollector]
    exact Collector.collect_perm hprevious hmeans hok hperm

/-! ## Two means of three, and two of one cluster -/

namespace Collector.Sample

def collector : Collector := ⟨3, [0, 1]⟩

def previous : Tensor Float := .ofRowLists [1] [[1], [5], [9]]

/-- The cluster in the middle has no mean. -/
def means : List (Int × Tensor Float) := [(2, .vector [8]), (0, .vector [2])]

/-- A third mean, of a cluster that has one already. -/
def doubled : List (Int × Tensor Float) := means ++ [(2, .vector [7])]

end Collector.Sample

theorem means_fill_their_places_sample :
    (∃ next, next.shape = [3, 1] ∧ next.rowLists[2]? = some [8] ∧ next.rowLists[1]? = some [5] ∧
      Collector.Sample.collector.collect Collector.Sample.means.reverse Collector.Sample.previous
        = .ok (next, ⟨3, [1]⟩)) ∧
    ∃ fault, Collector.Sample.collector.collect Collector.Sample.doubled Collector.Sample.previous
      = .error (.argument fault) := by
  have hprevious : Collector.Sample.previous.shape = [3, 1] := rfl
  constructor
  · have hmeans : ∀ e ∈ Collector.Sample.means, e.2.shape = [1] := by
      simp [Collector.Sample.means, Tensor.vector]
    obtain ⟨next, hshape, hrows, hcollect⟩ :=
      (means_fill_their_places (c := Collector.Sample.collector) hprevious hmeans).2.1
        rfl (by decide) (by decide)
    exact ⟨next, hshape, (hrows 2 (by decide)).1 _ List.mem_cons_self,
      (hrows 1 (by decide)).2 (by decide), hcollect _ (List.reverse_perm _).symm⟩
  · refine (means_fill_their_places hprevious ?_).1.2 (.inr (.inr (by decide)))
    simp [Collector.Sample.doubled, Collector.Sample.means, Tensor.vector]

end ClusterRounds
