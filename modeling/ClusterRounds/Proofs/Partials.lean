/-
  ClusterRounds.Proofs.Partials

  Partials whatever the coordinates are. A partial is sound if no cluster comes twice,
  every cluster is one of the `k`, and every sum is one of at least one point, with as
  many coordinates as the points have. The local reduction makes sound partials, merging
  keeps them so, and nothing on the way to the next centroids can fail on one: not the
  merge of two sums, nor a mean, nor the collector.
-/

import ClusterRounds.Proofs.Labels
import ClusterRounds.Proofs.Course
import Mathlib.Data.List.GetD
import Mathlib.Data.List.Induction
import Mathlib.Data.List.Sigma

namespace ClusterRounds

variable {α : Type}

/-! ## Adding one cluster -/

namespace Partial

variable [Add α] {key : Int}

/-- A new cluster comes last. -/
theorem add_of_not_mem {a : Accumulator α} :
    ∀ {p : Partial α}, key ∉ p.map (·.1) → p.add key a = .ok (p ++ [(key, a)])
  | [], _ => rfl
  | (k, b) :: rest, h => by
    simp only [List.map_cons, List.mem_cons, not_or] at h
    unfold Partial.add
    rw [if_neg (Ne.symm h.1), add_of_not_mem h.2]
    rfl

/-- A cluster that is there keeps its place. -/
theorem add_of_mem {a b c : Accumulator α} {rest : Partial α} (hmerge : b.merge a = .ok c) :
    ∀ {before : Partial α}, key ∉ before.map (·.1) →
      Partial.add (before ++ (key, b) :: rest) key a = .ok (before ++ (key, c) :: rest)
  | [], _ => by
    rw [List.nil_append]
    unfold Partial.add
    rw [if_pos rfl, hmerge]
    rfl
  | (k, d) :: before, h => by
    simp only [List.map_cons, List.mem_cons, not_or] at h
    rw [List.cons_append]
    unfold Partial.add
    rw [if_neg (Ne.symm h.1), add_of_mem hmerge h.2]
    rfl

end Partial

/-! ## The tree of merges -/

namespace Aggregate

/-- Of two partials and more, first one level is made. -/
theorem reduce_cons_cons [Add α] (p q : Partial α) (rest : List (Partial α)) :
    reduce (p :: q :: rest) = mergePairs (p :: q :: rest) >>= reduce := by
  rw [reduce]
  split
  · rename_i e herror
    rw [herror]
    rfl
  · rename_i next hlevel
    rw [hlevel]
    rfl

variable [Add α] {ι : Type} {R : Partial α → List ι → Prop}
  (hmerge : ∀ {p q xs ys}, R p xs → R q ys → ∃ r, p.merge q = .ok r ∧ R r (xs ++ ys))

include hmerge

/-- One level: what two neighbours are made of, their merge is made of. -/
theorem exists_mergePairs {ps : List (Partial α)} {xss : List (List ι)}
    (h : List.Forall₂ R ps xss) :
    ∃ qs yss, mergePairs ps = .ok qs ∧ List.Forall₂ R qs yss ∧ yss.flatten = xss.flatten := by
  induction ps using mergePairs.induct generalizing xss with
  | case1 p q rest ih =>
    obtain ⟨xs, others, hp, h', rfl⟩ := List.forall₂_cons_left_iff.1 h
    obtain ⟨ys, xss', hq, hrest, rfl⟩ := List.forall₂_cons_left_iff.1 h'
    obtain ⟨r, hr, hrel⟩ := hmerge hp hq
    obtain ⟨qs, yss, hqs, hall, hflat⟩ := ih hrest
    refine ⟨r :: qs, (xs ++ ys) :: yss, ?_, .cons hrel hall, by simp [hflat]⟩
    unfold mergePairs
    rw [hr, hqs]
    rfl
  | case2 short hshort =>
    -- a partial that is alone stays
    refine ⟨short, xss, ?_, h, rfl⟩
    unfold mergePairs
    split
    · exact absurd rfl (hshort _ _ _)
    · rfl

/-- What the partials are made of, the merge of all is made of, in their order. -/
theorem exists_reduce (hnil : R [] []) {ps : List (Partial α)} {xss : List (List ι)}
    (h : List.Forall₂ R ps xss) : ∃ r, reduce ps = .ok r ∧ R r xss.flatten := by
  induction ps using reduce.induct generalizing xss with
  | case1 =>
    cases h
    exact ⟨[], by unfold reduce; rfl, hnil⟩
  | case2 p =>
    cases h with
    | cons hp hrest =>
      cases hrest
      exact ⟨p, by unfold reduce; rfl, by simpa using hp⟩
  | case3 p q rest e herror =>
    -- a level never fails
    obtain ⟨_, _, hok, -⟩ := exists_mergePairs hmerge h
    rw [herror] at hok
    cases hok
  | case4 p q rest level hlevel ih =>
    obtain ⟨qs, yss, hok, hall, hflat⟩ := exists_mergePairs hmerge h
    rw [hlevel] at hok
    cases hok
    obtain ⟨r, hr, hrel⟩ := ih hall
    exact ⟨r, by rw [reduce_cons_cons, hlevel]; exact hr, hflat ▸ hrel⟩

end Aggregate

/-! ## Sound partials -/

/-- The sum of at least one point of the cluster, which is one of the `k`. -/
structure Accumulator.Sound (k width : Nat) (key : Int) (a : Accumulator α) : Prop where
  cluster_eq : a.cluster = key
  low : 0 ≤ key
  high : key < k
  count_pos : 0 < a.count
  shape_eq : a.sum.shape = [width]

/-- No cluster comes twice, and each has points. -/
structure Partial.Sound (k width : Nat) (p : Partial α) : Prop where
  nodup : (p.map (·.1)).Nodup
  entries : ∀ e ∈ p, e.2.Sound k width e.1

section Sound

variable {k width : Nat} {p q : Partial α}

theorem Partial.sound_nil : Partial.Sound k width ([] : Partial α) :=
  ⟨List.nodup_nil, fun _ h => nomatch h⟩

section Merging

variable [Add α] {key : Int} {a b : Accumulator α}

/-- Two sums of one cluster make a sum of it. -/
theorem Accumulator.Sound.merge (ha : a.Sound k width key) (hb : b.Sound k width key) :
    ∃ c, a.merge b = .ok c ∧ c.Sound k width key := by
  have hshape : a.sum.shape = b.sum.shape := ha.shape_eq.trans hb.shape_eq.symm
  refine ⟨⟨a.cluster, Tensor.zipSame (· + ·) a.sum b.sum hshape, a.count + b.count⟩, ?_,
    ha.cluster_eq, ha.low, ha.high, Int.add_pos ha.count_pos hb.count_pos, ha.shape_eq⟩
  unfold Accumulator.merge
  rw [if_neg (by simp [ha.cluster_eq, hb.cluster_eq]), Tensor.zipWith_of_shape _ hshape]
  rfl

theorem Partial.Sound.add (h : p.Sound k width) (ha : a.Sound k width key) :
    ∃ p', p.add key a = .ok p' ∧ p'.Sound k width := by
  by_cases hmem : key ∈ p.map (·.1)
  · -- the cluster is there, once
    obtain ⟨⟨key, b⟩, he, rfl⟩ := List.mem_map.1 hmem
    obtain ⟨before, rest, rfl⟩ := List.append_of_mem he
    obtain ⟨c, hmerge, hc⟩ := (h.entries _ he).merge ha
    have hnodup := h.nodup
    rw [List.map_append, List.map_cons, List.nodup_append] at hnodup
    have hbefore : key ∉ before.map (·.1) := fun hin => hnodup.2.2 _ hin _ List.mem_cons_self rfl
    refine ⟨_, add_of_mem hmerge hbefore, ?_, fun e he => ?_⟩
    · rw [List.map_append, List.map_cons, List.nodup_append]
      exact hnodup
    · rcases List.mem_append.1 he with he | he
      · exact h.entries e (List.mem_append_left _ he)
      · rcases List.mem_cons.1 he with rfl | he
        · exact hc
        · exact h.entries e (List.mem_append_right _ (List.mem_cons_of_mem _ he))
  · refine ⟨_, add_of_not_mem hmem, ?_, fun e he => ?_⟩
    · rw [List.map_append, List.map_singleton, List.nodup_append]
      refine ⟨h.nodup, List.nodup_cons.2 ⟨by simp, List.nodup_nil⟩, fun x hx y hy hxy => hmem ?_⟩
      rwa [hxy, List.mem_singleton.1 hy] at hx
    · rcases List.mem_append.1 he with he | he
      · exact h.entries e he
      · rw [List.mem_singleton.1 he]
        exact ha

theorem Partial.Sound.merge (hp : p.Sound k width) (hq : q.Sound k width) :
    ∃ r, p.merge q = .ok r ∧ r.Sound k width := by
  unfold Partial.merge
  -- the right side is added cluster by cluster
  have hentries := hq.entries
  clear hq
  induction q generalizing p with
  | nil => exact ⟨p, rfl, hp⟩
  | cons e q ih =>
    obtain ⟨p', hadd, hp'⟩ := hp.add (hentries e List.mem_cons_self)
    obtain ⟨r, hr, hsound⟩ := ih hp' fun e he => hentries e (List.mem_cons_of_mem _ he)
    refine ⟨r, ?_, hsound⟩
    rw [List.foldlM_cons, hadd]
    exact hr

/-- The merge of all partials never fails on sound ones. -/
theorem Partial.exists_reduce_sound {ps : List (Partial α)} (h : ∀ p ∈ ps, p.Sound k width) :
    ∃ r, Aggregate.reduce ps = .ok r ∧ r.Sound k width := by
  have hall : List.Forall₂ (fun (p : Partial α) (_ : List Unit) => p.Sound k width) ps
      (ps.map fun _ => []) := by
    rw [List.forall₂_map_right_iff, List.forall₂_same]
    exact h
  exact Aggregate.exists_reduce (fun hp hq => hp.merge hq) Partial.sound_nil hall

end Merging

/-! ## The local reduction -/

section Local

variable {labels : List Nat} {points : Tensor α} {n w : Nat}

/-- The clusters with points of a table of sums. -/
theorem Aggregate.sound_occupied {sums : List (List α)} (hk : sums.length ≤ k)
    (hrows : ∀ row ∈ sums, row.length = width) (counts : List Nat) :
    (occupied sums counts).Sound k width where
  nodup := by
    have hplaces : (((sums.zip counts).zipIdx.filter fun e => 0 < e.1.2).map (·.2)).Nodup :=
      (List.filter_sublist.map _).nodup (List.nodup_zipIdx_map_snd _)
    unfold occupied
    rw [List.map_map]
    have hkeys := hplaces.map (f := fun (j : Nat) => (j : Int)) fun _ _ heq => Int.ofNat.inj heq
    rwa [List.map_map] at hkeys
  entries e he := by
    obtain ⟨⟨⟨row, count⟩, j⟩, hmem, rfl⟩ := List.mem_map.1 he
    obtain ⟨hmem, hcount⟩ := List.mem_filter.1 hmem
    rw [List.mem_zipIdx_iff_getElem?, List.getElem?_zip_eq_some] at hmem
    have hlt := (List.getElem?_eq_some_iff.1 hmem.1).1
    have hrow := hrows row (List.mem_of_getElem? hmem.1)
    exact ⟨rfl, Int.natCast_nonneg j, Int.ofNat_lt.2 (Nat.lt_of_lt_of_le hlt hk),
      by simpa using hcount, by simp [Tensor.vector, hrow]⟩

/-- Adding rows to the rows of a table leaves a table of that size. -/
theorem Aggregate.scatter_rows {table : List (List α)} [Add α]
    (htable : ∀ row ∈ table, row.length = width) :
    ∀ {entries : List (Nat × List α)}, (∀ e ∈ entries, e.2.length = width) →
      (scatter table entries).length = table.length ∧
        ∀ row ∈ scatter table entries, row.length = width := by
  intro entries
  induction entries using List.reverseRecOn with
  | nil => exact fun _ => ⟨rfl, htable⟩
  | append_singleton entries e ih =>
    intro hentries
    obtain ⟨hlength, hrows⟩ := ih fun f hf => hentries f (List.mem_append_left _ hf)
    have hstep : scatter table (entries ++ [e])
        = (scatter table entries).modify e.1 fun row => List.zipWith (· + ·) row e.2 := by
      simp [scatter]
    rw [hstep]
    refine ⟨by rw [List.length_modify, hlength], fun row hrow => ?_⟩
    obtain ⟨j, hj, rfl⟩ := List.mem_iff_getElem.1 hrow
    rw [List.length_modify] at hj
    have hold := hrows _ (List.getElem_mem hj)
    rw [List.getElem_modify]
    split
    · rw [List.length_zipWith, hold, hentries e (by simp), Nat.min_self]
    · exact hold

/-- The clusters with points are read off two tables, of sums and of counts. -/
theorem Aggregate.accumulate_eq_occupied [Zero α] [Add α] {k : Int} {labels : List Int}
    (epoch : Int) (hpoints : points.shape = [labels.length, width]) (hne : labels ≠ [])
    (hlabels : ∀ l ∈ labels, 0 ≤ l ∧ l < k) :
    accumulate ⟨epoch, labels, points⟩ k = .ok (occupied
      (scatter (List.replicate k.toNat (List.replicate width 0))
        ((labels.map Int.toNat).zip points.rowLists)) (tally k.toNat (labels.map Int.toNat))) := by
  have hempty : labels.isEmpty = false := by simpa using hne
  have hrange : inRange k labels = true := by
    rw [inRange, List.all_eq_true]
    exact fun l hl => by simpa using hlabels l hl
  have hrows : rowsFor labels.length points = .ok points.rowLists := by
    unfold rowsFor
    rw [if_neg (by simp [Tensor.rank_of_shape hpoints]), if_pos (Tensor.rowTotal_of_shape hpoints)]
  unfold accumulate
  simp only [hempty, hrange, hrows, Tensor.width_of_shape hpoints, ofOperands_ok,
    Bool.false_eq_true, if_false, Bool.not_true]
  rfl

/-- The points of a partition, with labels below `k`, make a sound partial. -/
theorem Aggregate.exists_accumulate [Zero α] [Add α] (hpoints : points.shape = [n, w])
    (hsuits : n = 0 ∨ w = width) (hlength : labels.length = n) (hlabels : ∀ l ∈ labels, l < k)
    (epoch : Int) : ∃ p,
      accumulate ⟨epoch, labels.map fun (l : Nat) => (l : Int), points⟩ k = .ok p ∧
      p.Sound k width := by
  by_cases hn : n = 0
  · have hnil : labels = [] := List.eq_nil_of_length_eq_zero (hlength.trans hn)
    subst hnil
    exact ⟨[], rfl, Partial.sound_nil⟩
  · obtain rfl : w = width := hsuits.resolve_left hn
    have hne : (labels.map fun (l : Nat) => (l : Int)) ≠ [] := by
      rw [ne_eq, List.map_eq_nil_iff]
      rintro rfl
      exact hn hlength.symm
    have hcount : points.shape = [(labels.map fun (l : Nat) => (l : Int)).length, w] := by
      rw [List.length_map, hlength]
      exact hpoints
    have hrange : ∀ l ∈ labels.map fun (l : Nat) => (l : Int), 0 ≤ l ∧ l < k := by
      intro l hl
      obtain ⟨i, hi, rfl⟩ := List.mem_map.1 hl
      have := hlabels i hi
      omega
    have hzeros : ∀ row ∈ List.replicate (k : Int).toNat (List.replicate w (0 : α)),
        row.length = w := by
      intro row hrow
      rw [List.eq_of_mem_replicate hrow, List.length_replicate]
    have hentries : ∀ e ∈ ((labels.map fun (l : Nat) => (l : Int)).map Int.toNat).zip points.rowLists,
        e.2.length = w := by
      rintro ⟨l, row⟩ he
      simpa using Tensor.length_of_mem_rowLists hpoints (List.of_mem_zip he).2
    obtain ⟨hsize, hsums⟩ := scatter_rows hzeros hentries
    exact ⟨_, accumulate_eq_occupied epoch hcount hne hrange,
      sound_occupied (by rw [hsize, List.length_replicate, Int.toNat_natCast]) hsums _⟩

end Local

/-! ## What a partition brings -/

section Contribution

variable {labels : List Nat} {points centroids : Tensor α} {n w : Nat}

/-- The centroids of the labels, one for each. -/
theorem Quality.assigned_of_lt (hc : centroids.shape = [k, width]) (hlabels : ∀ l ∈ labels, l < k) :
    assigned centroids (labels.map fun (l : Nat) => (l : Int))
      = .ok (.ofRowLists [width] (labels.map fun l => centroids.rowLists.getD l [])) := by
  unfold assigned
  rw [Tensor.rowCount_of_shape hc, Tensor.innerShape_of_shape hc]
  refine bind_eq_ok.2 ⟨k, rfl, bind_eq_ok.2 ⟨labels.map fun l => centroids.rowLists.getD l [],
    mapM_eq_ok.2 ?_, rfl⟩⟩
  rw [List.forall₂_map_left_iff, List.forall₂_map_right_iff, List.forall₂_same]
  intro l hl
  have hplace : place? k (l : Int) = some l := by
    unfold place?
    simp [hlabels l hl]
  have hlt : l < centroids.rowLists.length := by
    rw [Tensor.length_rowLists hc]
    exact hlabels l hl
  rw [hplace, Option.bind_some, List.getElem?_toArray, List.getElem?_eq_getElem hlt,
    List.getD_eq_getElem _ _ hlt]

/-- Those centroids are a row for each label. -/
theorem Quality.shape_assigned (hc : centroids.shape = [k, width]) (hlabels : ∀ l ∈ labels, l < k) :
    (Tensor.ofRowLists [width] (labels.map fun l => centroids.rowLists.getD l [])).shape
      = [labels.length, width] := by
  rw [Tensor.shape_ofRowLists, List.length_map]
  intro row hrow
  obtain ⟨l, hl, rfl⟩ := List.mem_map.1 hrow
  have hlt : l < centroids.rowLists.length := by
    rw [Tensor.length_rowLists hc]
    exact hlabels l hl
  rw [List.getD_eq_getElem _ _ hlt]
  exact Tensor.length_of_mem_rowLists hc (List.getElem_mem hlt)

variable [Scalar α]

theorem Quality.exists_inertia (hpoints : points.shape = [labels.length, width])
    (hc : centroids.shape = [k, width]) (hlabels : ∀ l ∈ labels, l < k) :
    ∃ x, inertia points centroids (labels.map fun (l : Nat) => (l : Int)) = .ok x := by
  have hshape := hpoints.trans (shape_assigned hc hlabels).symm
  unfold inertia
  rw [Tensor.rowCount_of_shape hpoints, assigned_of_lt hc hlabels]
  by_cases hn : labels.length = 0
  · exact ⟨0, by simp [hn, bind, Except.bind, pure, Except.pure]⟩
  · have hrank : (Tensor.zipSame (· - ·) points _ hshape).rank = 2 := by
      simp [Tensor.rank, Tensor.zipSame, hpoints]
    simp only [bind, Except.bind, hn, if_false, Tensor.zipWith_of_shape _ hshape, hrank, ne_eq,
      not_true]
    exact ⟨_, rfl⟩

/-- Whatever numbers the measure answers with, a partition makes an output for the barrier. -/
theorem Iteration.exists_contribution {m : Measure α} (hm : m.AnswersAt width) (hk : 0 < k)
    (hpoints : points.shape = [n, w]) (hc : centroids.shape = [k, width])
    (hsuits : n = 0 ∨ w = width) (call : Nat) : ∃ o,
      contribution m k centroids call points = .ok o ∧ o.sums.Sound k width := by
  obtain ⟨labels, hnearest, hlength, hlabels⟩ := hm.nearest call hpoints hc hsuits hk
  by_cases hn : n = 0
  · rw [List.eq_nil_of_length_eq_zero (hlength.trans hn)] at hnearest
    exact ⟨⟨[], 0, []⟩, bind_eq_ok.2 ⟨[], hnearest, rfl⟩, Partial.sound_nil⟩
  · obtain ⟨sums, hsums, hsound⟩ := Aggregate.exists_accumulate hpoints hsuits hlength hlabels 0
    rw [← hlength, hsuits.resolve_left hn] at hpoints
    obtain ⟨x, hx⟩ := Quality.exists_inertia hpoints hc hlabels
    have hne : (labels.map fun (l : Nat) => (l : Int)).isEmpty = false := by
      rw [List.isEmpty_eq_false_iff, ne_eq, List.map_eq_nil_iff]
      rintro rfl
      exact hn hlength.symm
    refine ⟨⟨sums, x, labels.map fun (l : Nat) => (l : Int)⟩, bind_eq_ok.2 ⟨labels, hnearest, ?_⟩,
      hsound⟩
    unfold output
    rw [hsums]
    simp only [bind, Except.bind, hne, Bool.false_eq_true, if_false, hx, ofOperands_ok]
    rfl

end Contribution

/-! ## The next centroids -/

namespace Collector

theorem dropOnes_self (s : Shape) : dropOnes s.length s = s := by
  cases s with
  | nil => rfl
  | cons n s =>
    unfold dropOnes
    rw [if_neg (by simp)]

/-- A centroid with the shape of a row is taken as it is. -/
theorem rowEntries_of_shape {inner : Shape} {centroid : Tensor α} (h : centroid.shape = inner) :
    rowEntries inner centroid = .ok centroid.entries := by
  subst h
  have hstretch := Tensor.stretchTo_self centroid
  unfold rowEntries
  simp only [dropOnes_self]
  rw [if_neg (by simp)]
  simp [hstretch, Except.map]

/-- Means of different clusters are all put in their places. -/
theorem exists_foldlM_place {means : List (Int × Tensor α)} (hnodup : (means.map (·.1)).Nodup)
    (hmeans : ∀ e ∈ means, 0 ≤ e.1 ∧ e.1 < k ∧ e.2.shape = [width]) {progress : Progress α}
    (hfree : ∀ e ∈ means, progress.filled.getD e.1.toNat false = false) :
    ∃ done, means.foldlM (place k [width]) progress = .ok done := by
  induction means generalizing progress with
  | nil => exact ⟨progress, rfl⟩
  | cons e means ih =>
    obtain ⟨key, centroid⟩ := e
    obtain ⟨hnew, hnodup⟩ := List.nodup_cons.1 hnodup
    obtain ⟨hlow, hhigh, hshape⟩ := hmeans _ List.mem_cons_self
    have hplace : place k [width] progress (key, centroid)
        = .ok ⟨progress.rows.set key.toNat centroid.entries, progress.filled.set key.toNat true⟩ :=
      place_eq_ok.2 ⟨⟨hlow, hhigh⟩, hfree _ List.mem_cons_self, _, rowEntries_of_shape hshape, rfl⟩
    -- the places of the other means are still free
    have hfree' : ∀ e ∈ means, (progress.filled.set key.toNat true).getD e.1.toNat false = false := by
      intro e he
      have hne : key.toNat ≠ e.1.toNat := by
        intro heq
        refine hnew (List.mem_map.2 ⟨e, he, ?_⟩)
        have := (hmeans e (List.mem_cons_of_mem _ he)).1
        show e.1 = key
        omega
      rw [List.getD_eq_getElem?_getD, List.getElem?_set_ne hne, ← List.getD_eq_getElem?_getD]
      exact hfree e (List.mem_cons_of_mem _ he)
    rw [List.foldlM_cons, hplace]
    exact ih hnodup (fun e he => hmeans e (List.mem_cons_of_mem _ he)) hfree'

end Collector

section Next

variable [Scalar α] {centroids next : Tensor α} {outputs : List (PartitionOutput α)}

/-- The sum of at least one point has a mean. -/
theorem Accumulator.Sound.mean_eq {key : Int} {a : Accumulator α} (h : a.Sound k width key) :
    a.mean = .ok (key, a.sum.map (· / Scalar.ofInt a.count)) := by
  unfold Accumulator.mean
  rw [if_neg (Int.not_le.2 h.count_pos), h.cluster_eq]

/-- Sound partials have means, and these have places among the centroids. -/
theorem exists_nextCentroids (hc : centroids.shape = [k, width])
    (houtputs : ∀ o ∈ outputs, o.sums.Sound k width) :
    ∃ next, nextCentroids k outputs centroids = .ok next := by
  have hsums : ∀ p ∈ outputs.map (·.sums), p.Sound k width := by simpa using houtputs
  obtain ⟨merged, hmerged, hsound⟩ := Partial.exists_reduce_sound hsums
  have hmean : ∀ e ∈ merged, e.2.mean = .ok (e.1, e.2.sum.map (· / Scalar.ofInt e.2.count)) :=
    fun e he => (hsound.entries e he).mean_eq
  obtain ⟨done, hdone⟩ : ∃ done, (merged.map fun e =>
      (e.1, e.2.sum.map (· / Scalar.ofInt e.2.count))).foldlM
        (Collector.place k centroids.innerShape)
        ⟨centroids.rowLists, List.replicate k false⟩ = .ok done := by
    rw [Tensor.innerShape_of_shape hc]
    apply Collector.exists_foldlM_place
    · rw [List.map_map]
      exact hsound.nodup
    · intro mean hmem
      obtain ⟨e, he, rfl⟩ := List.mem_map.1 hmem
      have hentry := hsound.entries e he
      exact ⟨hentry.low, hentry.high, hentry.shape_eq⟩
    · intro mean hmem
      obtain ⟨e, he, rfl⟩ := List.mem_map.1 hmem
      have hhigh := (hsound.entries e he).high
      have hlow := (hsound.entries e he).low
      exact List.getD_replicate _ (by omega)
  refine ⟨.ofRowLists centroids.innerShape done.rows, nextCentroids_eq_ok.2 ⟨merged, _,
    ⟨k, Collector.unfilled done.filled⟩, hmerged, mapM_eq_ok_map hmean, ?_⟩⟩
  unfold Collector.collect
  rw [Tensor.rowCount_of_shape hc]
  refine bind_eq_ok.2 ⟨k, rfl, ?_⟩
  rw [if_neg (by simp [Collector.ofSize])]
  exact bind_eq_ok.2 ⟨done, hdone, rfl⟩

/-- Centroids with a coordinate have a largest change. -/
theorem Quality.exists_shift (hk : 0 < k) (hwidth : 0 < width) (hc : centroids.shape = [k, width])
    (hn : next.shape = [k, width]) : ∃ moved, shift centroids next = .ok moved := by
  refine exists_shift_of_shape (hn.trans hc.symm) (List.ne_nil_of_length_pos ?_)
  rw [Tensor.length_entries_of_shape hn]
  exact Nat.mul_pos hk hwidth

/-- Centroids without coordinates do not move, not even by nothing. -/
theorem Quality.shift_of_no_width (hc : centroids.shape = [k, 0]) (hn : next.shape = [k, 0]) :
    shift centroids next = .error .noElements := by
  have hshape : next.shape = centroids.shape := hn.trans hc.symm
  have hempty : (Tensor.zipSame (· - ·) next centroids hshape).entries = [] := by
    apply List.eq_nil_of_length_eq_zero
    rw [Tensor.length_entries]
    show Shape.size next.shape = 0
    rw [hn]
    simp [Shape.size]
  rw [shift, Tensor.zipWith_of_shape _ hshape]
  show Scalar.maximum (List.map _ (Tensor.zipSame (· - ·) next centroids hshape).entries) = _
  rw [hempty]
  rfl

end Next

end Sound

end ClusterRounds
