/-
  ClusterRounds.Proofs.Tallies

  What partials count. The number of points that a partial holds of a cluster is added up
  by every way of putting partials together, whatever the coordinates are; and the local
  reduction counts each label as often as it occurs. So a sound partial has an entry for
  exactly the labels that it was made of, and its counts add up to their number.
-/

import ClusterRounds.Proofs.Partials
import Mathlib.Algebra.BigOperators.Group.List.Lemmas
import Mathlib.Algebra.BigOperators.Ring.Finset
import Mathlib.Data.List.Count
import Mathlib.Data.List.Dedup

namespace ClusterRounds

variable {α : Type}

/-! ## Merging two accumulators -/

theorem Accumulator.merge_eq_ok [Add α] {a b c : Accumulator α} :
    a.merge b = .ok c ↔ b.cluster = a.cluster ∧
      ∃ sum, Tensor.zipWith (· + ·) a.sum b.sum = .ok sum ∧
        c = ⟨a.cluster, sum, a.count + b.count⟩ := by
  unfold Accumulator.merge
  by_cases hcluster : b.cluster = a.cluster
  · rw [if_neg (not_not.2 hcluster)]
    simp only [bind_eq_ok, pure_eq_ok, ofOperands_eq_ok, hcluster, true_and]
    exact exists_congr fun sum => and_congr_right fun _ => eq_comm
  · rw [if_pos hcluster]
    exact iff_of_false (fun h => by cases h) fun h => hcluster h.1

namespace Partial

/-! ## The points of a cluster -/

/-- How many points the partial holds of a cluster. -/
def countOf (p : Partial α) (c : Int) : Int := ((p.lookup c).map (·.count)).getD 0

@[simp] theorem countOf_nil (c : Int) : countOf ([] : Partial α) c = 0 := rfl

theorem countOf_cons (key : Int) (a : Accumulator α) (p : Partial α) (c : Int) :
    countOf ((key, a) :: p) c = if c = key then a.count else p.countOf c := by
  unfold countOf
  rw [List.lookup_cons]
  by_cases h : c = key
  · rw [if_pos h, beq_iff_eq.2 h]
    rfl
  · rw [if_neg h, beq_eq_false_iff_ne.2 h]

theorem countOf_of_not_mem {p : Partial α} {c : Int} (h : c ∉ p.map (·.1)) : p.countOf c = 0 := by
  induction p with
  | nil => rfl
  | cons e p ih =>
    obtain ⟨key, a⟩ := e
    simp only [List.map_cons, List.mem_cons, not_or] at h
    rw [countOf_cons, if_neg h.1, ih h.2]

section Adding

variable [Add α] {p p' q r : Partial α} {key : Int} {a : Accumulator α}

theorem countOf_add (h : p.add key a = .ok p') (c : Int) :
    p'.countOf c = p.countOf c + if c = key then a.count else 0 := by
  induction p generalizing p' with
  | nil =>
    cases h
    rw [countOf_cons, countOf_nil, Int.zero_add]
  | cons e p ih =>
    obtain ⟨k, b⟩ := e
    unfold Partial.add at h
    split at h
    · -- the count of the cluster grows where it stands
      rename_i hk
      obtain ⟨m, hmerge, h⟩ := bind_eq_ok.1 h
      cases pure_eq_ok.1 h
      obtain ⟨-, sum, -, rfl⟩ := Accumulator.merge_eq_ok.1 hmerge
      rw [countOf_cons, countOf_cons, hk]
      by_cases hc : c = key
      · simp only [if_pos hc]
      · simp only [if_neg hc, Int.add_zero]
    · rename_i hk
      obtain ⟨p'', hadd, h⟩ := bind_eq_ok.1 h
      cases pure_eq_ok.1 h
      rw [countOf_cons, countOf_cons, ih hadd]
      by_cases hc : c = k
      · have hne : c ≠ key := fun heq => hk (hc.symm.trans heq)
        simp only [if_pos hc, if_neg hne, Int.add_zero]
      · simp only [if_neg hc]

/-- Both maps together count what each of them counts. -/
theorem countOf_merge (hq : (q.map (·.1)).Nodup) (h : p.merge q = .ok r) (c : Int) :
    r.countOf c = p.countOf c + q.countOf c := by
  unfold Partial.merge at h
  induction q generalizing p with
  | nil =>
    cases pure_eq_ok.1 h
    rw [countOf_nil, Int.add_zero]
  | cons e q ih =>
    obtain ⟨key, a⟩ := e
    obtain ⟨hnew, hq⟩ := List.nodup_cons.1 hq
    rw [List.foldlM_cons] at h
    obtain ⟨p', hadd, h⟩ := bind_eq_ok.1 h
    rw [ih hq h, countOf_add hadd, countOf_cons]
    by_cases hc : c = key
    · -- no other entry of the right side is of this cluster
      have hzero : countOf q c = 0 := countOf_of_not_mem (hc ▸ hnew)
      rw [if_pos hc, if_pos hc, hzero, Int.add_zero]
    · rw [if_neg hc, if_neg hc, Int.add_zero]

end Adding

/-! ## The labels of a partial -/

/-- The partial holds as many points of each cluster as it comes up among the labels. -/
def Tallies (p : Partial α) (labels : List Int) : Prop := ∀ c, p.countOf c = labels.count c

section Sound

variable {k width : Nat} {p : Partial α} {labels : List Int}

theorem countOf_of_mem (hnodup : (p.map (·.1)).Nodup) {e : Int × Accumulator α} (he : e ∈ p) :
    p.countOf e.1 = e.2.count := by
  induction p with
  | nil => cases he
  | cons f p ih =>
    obtain ⟨key, a⟩ := f
    obtain ⟨hnew, hnodup⟩ := List.nodup_cons.1 hnodup
    rw [countOf_cons]
    rcases List.mem_cons.1 he with rfl | he
    · rw [if_pos rfl]
    · have hne : e.1 ≠ key := fun heq => hnew (heq ▸ List.mem_map.2 ⟨e, he, rfl⟩)
      rw [if_neg hne, ih hnodup he]

/-- The clusters of a sound partial are those with points. -/
theorem Sound.mem_keys_iff (h : p.Sound k width) {c : Int} :
    c ∈ p.map (·.1) ↔ 0 < p.countOf c := by
  constructor
  · intro hc
    obtain ⟨e, he, rfl⟩ := List.mem_map.1 hc
    rw [countOf_of_mem h.nodup he]
    exact (h.entries e he).count_pos
  · intro hpos
    by_contra hc
    rw [countOf_of_not_mem hc] at hpos
    exact absurd hpos (Int.lt_irrefl 0)

variable (h : p.Sound k width) (ht : p.Tallies labels)

include h ht

/-- They are the labels. -/
theorem Tallies.mem_keys_iff {c : Int} : c ∈ p.map (·.1) ↔ c ∈ labels := by
  rw [h.mem_keys_iff, ht c, Int.natCast_pos, List.count_pos_iff]

theorem Tallies.count_eq {e : Int × Accumulator α} (he : e ∈ p) :
    e.2.count = labels.count e.1 := by
  rw [← countOf_of_mem h.nodup he]
  exact ht e.1

/-- All counts together are the number of the labels. -/
theorem Tallies.sum_count : (p.map (·.2.count)).sum = labels.length := by
  have hcounts : p.map (·.2.count) = (p.map (·.1)).map fun c => ((labels.count c : Nat) : Int) := by
    rw [List.map_map]
    exact List.map_congr_left fun e he => ht.count_eq h he
  -- the clusters are the labels, each of them once
  have hperm : (p.map (·.1)).Perm labels.dedup := by
    rw [List.perm_ext_iff_of_nodup h.nodup (List.nodup_dedup labels)]
    intro c
    rw [ht.mem_keys_iff h, List.mem_dedup]
  have hlength := List.sum_map_count_dedup_eq_length labels
  calc (p.map (·.2.count)).sum
      = (labels.dedup.map fun c => ((labels.count c : Nat) : Int)).sum := by
        rw [hcounts, (hperm.map _).sum_eq]
    _ = ((labels.dedup.map fun c => labels.count c).sum : Nat) := by
        rw [Nat.cast_list_sum, List.map_map]
        rfl
    _ = labels.length := by rw [hlength]

end Sound

end Partial

/-! ## Counting labels -/

namespace Aggregate

theorem mem_occupied {sums : List (List α)} {counts : List Nat} {e : Int × Accumulator α} :
    e ∈ occupied sums counts ↔ ∃ (j : Nat) (row : List α) (count : Nat), sums[j]? = some row ∧
      counts[j]? = some count ∧ 0 < count ∧ e = ((j : Int), ⟨j, Tensor.vector row, count⟩) := by
  unfold occupied
  simp only [List.mem_map, List.mem_filter, List.mem_zipIdx_iff_getElem?, List.getElem?_zip_eq_some,
    decide_eq_true_eq]
  constructor
  · rintro ⟨⟨⟨row, count⟩, j⟩, ⟨⟨hrow, hcount⟩, hpos⟩, rfl⟩
    exact ⟨j, row, count, hrow, hcount, hpos, rfl⟩
  · rintro ⟨j, row, count, hrow, hcount, hpos, rfl⟩
    exact ⟨((row, count), j), ⟨⟨hrow, hcount⟩, hpos⟩, rfl⟩

theorem getElem?_tally {k j : Nat} {labels : List Nat} {count : Nat} :
    (tally k labels)[j]? = some count ↔ j < k ∧ labels.count j = count := by
  simp only [tally, List.getElem?_eq_some_iff, List.length_map, List.length_range,
    List.getElem_map, List.getElem_range, exists_prop]

/-- The clusters with points hold as many as the table of counts says. -/
theorem countOf_occupied {k : Nat} {sums : List (List α)} {labels : List Nat}
    (hsums : sums.length = k) (hnodup : ((occupied sums (tally k labels)).map (·.1)).Nodup)
    (hlabels : ∀ l ∈ labels, l < k) (c : Int) :
    (occupied sums (tally k labels)).countOf c = (labels.map fun (l : Nat) => (l : Int)).count c := by
  by_cases hc : c ∈ labels.map fun (l : Nat) => (l : Int)
  · -- there is an entry for it
    obtain ⟨l, hl, rfl⟩ := List.mem_map.1 hc
    have hlt : l < sums.length := hsums ▸ hlabels l hl
    have hentry : ((l : Int), (⟨l, Tensor.vector sums[l], labels.count l⟩ : Accumulator α))
        ∈ occupied sums (tally k labels) :=
      mem_occupied.2 ⟨l, sums[l], labels.count l, List.getElem?_eq_getElem hlt,
        getElem?_tally.2 ⟨hlabels l hl, rfl⟩, List.count_pos_iff.2 hl, rfl⟩
    have hcount : (labels.map fun (l : Nat) => (l : Int)).count (l : Int) = labels.count l :=
      List.count_map_of_injective labels _ Int.ofNat_injective l
    rw [Partial.countOf_of_mem hnodup hentry, hcount]
  · -- there is none
    rw [List.count_eq_zero_of_not_mem hc]
    refine Partial.countOf_of_not_mem fun hmem => hc ?_
    obtain ⟨e, he, rfl⟩ := List.mem_map.1 hmem
    obtain ⟨j, row, count, -, hcount, hpos, rfl⟩ := mem_occupied.1 he
    obtain ⟨-, rfl⟩ := getElem?_tally.1 hcount
    exact List.mem_map.2 ⟨j, List.count_pos_iff.1 hpos, rfl⟩

/-- The rows that are added are of the width of the points. -/
theorem length_of_rowsFor {points : Tensor α} {n w count : Nat} {rows : List (List α)}
    (hpoints : points.shape = [n, w]) (h : rowsFor count points = .ok rows) :
    ∀ row ∈ rows, row.length = w := by
  have hlength : ∀ row ∈ points.rowLists, row.length = w := fun row hrow => by
    simpa using Tensor.length_of_mem_rowLists hpoints hrow
  unfold rowsFor at h
  rw [if_neg (by simp [Tensor.rank_of_shape hpoints])] at h
  split at h
  · cases h
    exact hlength
  · split at h
    · rename_i hone
      cases h
      intro row hrow
      -- a single row serves all labels
      rw [List.eq_of_mem_replicate hrow]
      rw [Tensor.rowTotal_of_shape hpoints] at hone
      obtain ⟨only, hrows⟩ := List.length_eq_one_iff.1 ((Tensor.length_rowLists hpoints).trans hone)
      exact hlength _ (by rw [hrows]; exact List.mem_singleton.2 rfl)
    · cases h

/-- Whatever the local reduction makes of points and labels is sound, and tallies the labels. -/
theorem tallies_accumulate [Zero α] [Add α] {labels : List Int} {points : Tensor α}
    {k n w : Nat} {epoch : Int} {p : Partial α} (hpoints : points.shape = [n, w])
    (h : accumulate ⟨epoch, labels, points⟩ k = .ok p) :
    p.Tallies labels ∧ (labels = [] ∧ p = [] ∨ p.Sound k w) := by
  unfold accumulate at h
  dsimp only at h
  split at h
  · rename_i hempty
    cases pure_eq_ok.1 h
    rw [List.isEmpty_iff] at hempty
    exact ⟨fun c => by rw [hempty]; rfl, .inl ⟨hempty, rfl⟩⟩
  · split at h
    · cases h
    · rename_i hrange
      rw [Tensor.width_of_shape hpoints] at h
      obtain ⟨width, hwidth, h⟩ := bind_eq_ok.1 h
      obtain ⟨rows, hrows, h⟩ := bind_eq_ok.1 h
      cases hwidth
      cases pure_eq_ok.1 h
      rw [Bool.not_eq_true', Bool.not_eq_false, inRange, List.all_eq_true] at hrange
      have hlabels : ∀ l ∈ labels, 0 ≤ l ∧ l < k := fun l hl => by simpa using hrange l hl
      -- every sum starts as a row of zeros, and rows are added to it
      have htable : ∀ row ∈ List.replicate (k : Int).toNat (List.replicate w (0 : α)),
          row.length = w := fun row hrow => by
        rw [List.eq_of_mem_replicate hrow, List.length_replicate]
      have hentries : ∀ e ∈ (labels.map Int.toNat).zip rows, e.2.length = w := fun e he =>
        length_of_rowsFor hpoints (ofOperands_eq_ok.1 hrows) _ (List.of_mem_zip he).2
      obtain ⟨hsize, hsums⟩ := scatter_rows htable hentries
      rw [List.length_replicate] at hsize
      have hsound := sound_occupied (k := k) (by rw [hsize, Int.toNat_natCast]) hsums
        (tally (k : Int).toNat (labels.map Int.toNat))
      have hsame : (labels.map Int.toNat).map (fun (l : Nat) => (l : Int)) = labels := by
        rw [List.map_map]
        exact (List.map_congr_left fun l hl => Int.toNat_of_nonneg (hlabels l hl).1).trans
          (List.map_id labels)
      refine ⟨fun c => ?_, .inr hsound⟩
      rw [countOf_occupied hsize hsound.nodup ?_ c, hsame]
      intro l hl
      obtain ⟨c, hc, rfl⟩ := List.mem_map.1 hl
      have := hlabels c hc
      omega

end Aggregate

/-! ## The merge of all partials -/

/-- The merge of sound partials tallies all their labels. -/
theorem Partial.exists_reduce_tallies [Add α] {k width : Nat} {ps : List (Partial α)}
    {labels : List (List Int)}
    (h : List.Forall₂ (fun (p : Partial α) ls => p.Sound k width ∧ p.Tallies ls) ps labels) :
    ∃ r, Aggregate.reduce ps = .ok r ∧ r.Sound k width ∧ r.Tallies labels.flatten := by
  refine Aggregate.exists_reduce (fun {p q xs ys} hp hq => ?_)
    ⟨Partial.sound_nil, fun c => rfl⟩ h
  obtain ⟨r, hr, hsound⟩ := hp.1.merge hq.1
  refine ⟨r, hr, hsound, fun c => ?_⟩
  rw [countOf_merge hq.1.nodup hr, hp.2 c, hq.2 c, List.count_append, Int.natCast_add]

end ClusterRounds
