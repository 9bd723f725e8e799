/-
  ClusterRounds.Proofs.Accumulation

  What the local reduction makes of labels and points, whatever addition does. One pass adds
  every point to the row of its label (`Aggregate.getElem?_scatter`) and another one counts the
  labels; both keep to the labels that occur, so each of them comes with the number of its
  points and, coordinate by coordinate, the sum from zero of its own points in their order
  (`Partial.SumsUp`). No law of addition is needed, and so it holds of rounded sums too.
-/

import ClusterRounds.Proofs.Tallies

namespace ClusterRounds

variable {α : Type}

namespace Aggregate

/-! ## The points of a label -/

/-- The rows with a label, in their order. -/
def rowsOf (c : Int) (labels : List Int) (rows : List (List α)) : List (List α) :=
  ((labels.zip rows).filter (·.1 = c)).map (·.2)

/-- The sums of rows: each coordinate starts from zero and takes the rows one after the other. -/
def sumsOf [Zero α] [Add α] (width : Nat) (rows : List (List α)) : List α :=
  (List.range width).map fun i => (rows.map (·.getD i 0)).foldl (· + ·) 0

theorem length_rowsOf (c : Int) {labels : List Int} {rows : List (List α)}
    (h : rows.length = labels.length) : (rowsOf c labels rows).length = labels.count c := by
  have hlabels : (labels.zip rows).map Prod.fst = labels := List.map_fst_zip (Nat.le_of_eq h.symm)
  calc (rowsOf c labels rows).length
      = ((labels.zip rows).map Prod.fst).countP (· == c) := by
        rw [rowsOf, List.length_map, List.countP_map, List.countP_eq_length_filter]
        rfl
    _ = labels.count c := by rw [hlabels, List.count]

theorem mem_of_mem_rowsOf {c : Int} {labels : List Int} {rows : List (List α)} {row : List α}
    (h : row ∈ rowsOf c labels rows) : row ∈ rows := by
  obtain ⟨e, he, rfl⟩ := List.mem_map.1 h
  exact (List.of_mem_zip (List.mem_filter.1 he).1).2

/-! ## The table of sums -/

section Scatter

variable [Add α]

/-- Each row of the table takes the rows of its own place, in their order. -/
theorem getElem?_scatter (table : List (List α)) (entries : List (Nat × List α)) (j : Nat) :
    (scatter table entries)[j]? = table[j]?.map fun row =>
      ((entries.filter (·.1 = j)).map (·.2)).foldl (List.zipWith (· + ·)) row := by
  induction entries generalizing table with
  | nil => simp [scatter]
  | cons e entries ih =>
    have hstep : scatter table (e :: entries)
        = scatter (table.modify e.1 fun row => List.zipWith (· + ·) row e.2) entries := rfl
    rw [hstep, ih, List.getElem?_modify]
    by_cases h : e.1 = j
    · simp [h, Function.comp_def]
    · simp [h]

/-- Rows of one width are added coordinate by coordinate. -/
theorem foldl_zipWith_eq [Zero α] {width : Nat} {rows : List (List α)}
    (hrows : ∀ row ∈ rows, row.length = width) {start : List α} (hstart : start.length = width) :
    rows.foldl (List.zipWith (· + ·)) start
      = (List.range width).map fun i => (rows.map (·.getD i 0)).foldl (· + ·) (start.getD i 0) := by
  induction rows generalizing start with
  | nil =>
    apply List.ext_getElem (by simp [hstart])
    intro i hi _
    simp only [List.foldl_nil] at hi
    simp [hi]
  | cons row rows ih =>
    obtain ⟨hrow, hrows⟩ := List.forall_mem_cons.1 hrows
    have hnext : (List.zipWith (· + ·) start row).length = width := by simp [hstart, hrow]
    rw [List.foldl_cons, ih hrows hnext]
    refine List.map_congr_left fun i hi => ?_
    have hlt := List.mem_range.1 hi
    have hcoordinate : (List.zipWith (· + ·) start row).getD i 0 = start.getD i 0 + row.getD i 0 := by
      rw [List.getD_eq_getElem _ _ (hnext.symm ▸ hlt), List.getD_eq_getElem _ _ (hstart.symm ▸ hlt),
        List.getD_eq_getElem _ _ (hrow.symm ▸ hlt), List.getElem_zipWith]
    rw [hcoordinate, List.map_cons, List.foldl_cons]

/-- In a table that starts from zeros each row is the sums of the rows of its place. -/
theorem scatter_zeros [Zero α] {k width : Nat} {entries : List (Nat × List α)}
    (hentries : ∀ e ∈ entries, e.2.length = width) {j : Nat} (hj : j < k) :
    (scatter (List.replicate k (List.replicate width 0)) entries)[j]?
      = some (sumsOf width ((entries.filter (·.1 = j)).map (·.2))) := by
  have hrows : ∀ row ∈ (entries.filter (·.1 = j)).map (·.2), row.length = width := by
    intro row hrow
    obtain ⟨e, he, rfl⟩ := List.mem_map.1 hrow
    exact hentries e (List.mem_filter.1 he).1
  rw [getElem?_scatter, List.getElem?_replicate_of_lt hj, Option.map_some,
    foldl_zipWith_eq hrows (List.length_replicate)]
  refine congrArg some (List.map_congr_left fun i hi => ?_)
  rw [List.getD_replicate _ (List.mem_range.1 hi)]

end Scatter

/-! ## The clusters with points -/

/-- They come in ascending order. -/
theorem pairwise_occupied (sums : List (List α)) (counts : List Nat) :
    ((occupied sums counts).map (·.1)).Pairwise (· < ·) := by
  have hplaces : (((sums.zip counts).zipIdx.filter fun e => 0 < e.1.2).map (·.2)).Pairwise (· < ·) := by
    refine List.Pairwise.sublist (List.filter_sublist.map _) ?_
    rw [List.zipIdx_map_snd]
    exact List.pairwise_lt_range'
  unfold occupied
  rw [List.map_map, List.pairwise_map] at *
  exact hplaces.imp fun h => Int.ofNat_lt.2 h

end Aggregate

/-! ## The partial of labels and points -/

/-- The partial has an entry for each label that occurs, in ascending order: the sums and the number
    of the rows with the label. -/
structure Partial.SumsUp [Zero α] [Add α] (p : Partial α) (width : Nat) (labels : List Int)
    (rows : List (List α)) : Prop where
  ascending : (p.map (·.1)).Pairwise (· < ·)
  mem_keys_iff : ∀ c, c ∈ p.map (·.1) ↔ c ∈ labels
  entry_eq : ∀ e ∈ p, e.2 = ⟨e.1, .vector (Aggregate.sumsOf width (Aggregate.rowsOf e.1 labels rows)),
    labels.count e.1⟩

namespace Partial

variable [Zero α] [Add α] {p p' : Partial α} {width width' : Nat} {labels labels' : List Int}
  {rows rows' : List (List α)}

theorem SumsUp.nil : SumsUp ([] : Partial α) width [] rows :=
  ⟨List.Pairwise.nil, fun _ => Iff.rfl, fun _ h => nomatch h⟩

/-- What is kept for a cluster, told by the rows with its label alone. -/
theorem SumsUp.lookup_eq (h : p.SumsUp width labels rows) (hlength : rows.length = labels.length)
    (c : Int) : p.lookup c =
      if Aggregate.rowsOf c labels rows = [] then none
      else some ⟨c, .vector (Aggregate.sumsOf width (Aggregate.rowsOf c labels rows)),
        (Aggregate.rowsOf c labels rows).length⟩ := by
  have hcount := Aggregate.length_rowsOf c hlength
  have hnil : Aggregate.rowsOf c labels rows = [] ↔ c ∉ labels := by
    rw [← List.length_eq_zero_iff, hcount, List.count_eq_zero]
  by_cases hc : c ∈ labels
  · obtain ⟨⟨key, a⟩, he, rfl⟩ := List.mem_map.1 ((h.mem_keys_iff c).2 hc)
    obtain ⟨before, after, rfl⟩ := List.append_of_mem he
    -- in ascending order the key stands at one place only
    have hbefore : ∀ e ∈ before, e.1 ≠ key := by
      have hascending := h.ascending
      rw [List.map_append, List.map_cons, List.pairwise_append] at hascending
      exact fun e he => Int.ne_of_lt
        (hascending.2.2 _ (List.mem_map.2 ⟨e, he, rfl⟩) _ List.mem_cons_self)
    rw [if_neg (fun heq => hnil.1 heq hc), hcount, ← h.entry_eq _ he, List.lookup_eq_some_iff]
    exact ⟨before, after, rfl, fun e he => by simpa using Ne.symm (hbefore e he)⟩
  · rw [if_pos (hnil.2 hc), List.lookup_eq_none_iff]
    intro e he
    have hne : e.1 ≠ c := fun heq => hc ((h.mem_keys_iff c).1 (List.mem_map.2 ⟨e, he, heq⟩))
    simpa using Ne.symm hne

end Partial

namespace Aggregate

variable [Zero α] [Add α] {k epoch : Int} {labels : List Int} {points : Tensor α} {width : Nat}

omit [Zero α] [Add α] in
/-- Labels that are places name the same rows as the places do. -/
theorem filter_places (hlabels : ∀ l ∈ labels, 0 ≤ l) (rows : List (List α)) (j : Nat) :
    ((((labels.map Int.toNat).zip rows).filter (·.1 = j)).map (·.2)) = rowsOf j labels rows := by
  rw [rowsOf, List.zip_map_left, List.filter_map, List.map_map]
  congr 1
  refine List.filter_congr fun e he => ?_
  have hlow := hlabels e.1 (List.of_mem_zip he).1
  simp only [Function.comp_apply, Prod.map_fst, decide_eq_decide]
  omega

/-- Labels of clusters, one for each point, sum up to a partial. -/
theorem exists_accumulate_sumsUp (epoch : Int) (hpoints : points.shape = [labels.length, width])
    (hrange : ∀ l ∈ labels, 0 ≤ l ∧ l < k) :
    ∃ p, accumulate ⟨epoch, labels, points⟩ k = .ok p ∧ p.SumsUp width labels points.rowLists ∧
      (p.map (·.2.count)).sum = labels.length := by
  by_cases hnil : labels = []
  · subst hnil
    exact ⟨[], rfl, .nil, rfl⟩
  · have hk : ((k.toNat : Nat) : Int) = k := by
      obtain ⟨l, hl⟩ := List.exists_mem_of_ne_nil labels hnil
      have := hrange l hl
      omega
    have hp := accumulate_eq_occupied epoch hpoints hnil hrange
    have htallies := tallies_accumulate hpoints (hk.symm ▸ hp)
    obtain ⟨hcounts, ⟨hnil', -⟩ | hsound⟩ := htallies
    · exact absurd hnil' hnil
    refine ⟨_, hp, ⟨pairwise_occupied _ _, fun c => hcounts.mem_keys_iff hsound, fun e he => ?_⟩,
      hcounts.sum_count hsound⟩
    have hcount := hcounts.count_eq hsound he
    obtain ⟨j, row, count, hrow, -, -, rfl⟩ := mem_occupied.1 he
    have hlt : j < k.toNat := by
      have := (hsound.entries _ he).high
      omega
    -- the row that was kept is the sums of the rows of its place
    have hwidths : ∀ e ∈ (labels.map Int.toNat).zip points.rowLists, e.2.length = width := fun e he =>
      (Tensor.length_of_mem_rowLists hpoints (List.of_mem_zip he).2).trans (Nat.mul_one width)
    rw [scatter_zeros hwidths hlt, Option.some.injEq,
      filter_places fun l hl => (hrange l hl).1] at hrow
    subst hrow
    exact congrArg (Accumulator.mk (j : Int) _) hcount

/-- A label that names no cluster is a breach of the rules of the rounds. -/
theorem accumulate_of_outside (hlabels : ∃ l ∈ labels, l < 0 ∨ k ≤ l) :
    accumulate ⟨epoch, labels, points⟩ k = .error (.protocol (.labelOutOfRange k epoch)) := by
  obtain ⟨l, hl, houtside⟩ := hlabels
  have hempty : labels.isEmpty = false := by
    rw [List.isEmpty_eq_false_iff]
    exact List.ne_nil_of_mem hl
  have hout : inRange k labels = false := by
    rw [inRange, List.all_eq_false]
    exact ⟨l, hl, by simp; omega⟩
  unfold accumulate
  simp only [hempty, hout]
  rfl

/-- What the reduction has made sums up its labels. -/
theorem sumsUp_of_accumulate {p : Partial α} (hpoints : points.shape = [labels.length, width])
    (h : accumulate ⟨epoch, labels, points⟩ k = .ok p) : p.SumsUp width labels points.rowLists := by
  have hrange : ∀ l ∈ labels, 0 ≤ l ∧ l < k := by
    by_contra hout
    push Not at hout
    obtain ⟨l, hl, hhigh⟩ := hout
    rw [accumulate_of_outside ⟨l, hl, by omega⟩] at h
    cases h
  obtain ⟨p', hp', hsums, -⟩ := exists_accumulate_sumsUp epoch hpoints hrange
  rw [hp', Except.ok.injEq] at h
  exact h ▸ hsums

end Aggregate

/-- Equal rows of a label give equal entries, whatever the other rows are. -/
theorem Partial.SumsUp.lookup_congr [Zero α] [Add α] {p p' : Partial α} {width width' : Nat}
    {labels labels' : List Int} {points points' : Tensor α}
    (hpoints : points.shape = [labels.length, width])
    (hpoints' : points'.shape = [labels'.length, width']) (h : p.SumsUp width labels points.rowLists)
    (h' : p'.SumsUp width' labels' points'.rowLists) {c : Int}
    (hrows : Aggregate.rowsOf c labels points.rowLists
      = Aggregate.rowsOf c labels' points'.rowLists) : p.lookup c = p'.lookup c := by
  rw [h.lookup_eq (Tensor.length_rowLists hpoints), h'.lookup_eq (Tensor.length_rowLists hpoints'),
    ← hrows]
  by_cases hnil : Aggregate.rowsOf c labels points.rowLists = []
  · rw [if_pos hnil, if_pos hnil]
  · -- a row that both have tells the width
    obtain ⟨row, hrow⟩ := List.exists_mem_of_ne_nil _ hnil
    have hwidth := Tensor.length_of_mem_rowLists hpoints (Aggregate.mem_of_mem_rowsOf hrow)
    have hwidth' := Tensor.length_of_mem_rowLists hpoints'
      (Aggregate.mem_of_mem_rowsOf (hrows ▸ hrow))
    obtain rfl : width = width' := by simpa using hwidth.symm.trans hwidth'
    rfl

/-- The local reduction of labels, one for each row of a matrix, fails exactly if one of them names
    no cluster, and that is a breach of the rules of the rounds. Otherwise it has one accumulator for
    each label that occurs, in ascending order, with the number of its points and the sums of its
    points in their order. The numbers add up to that of all points; and what is kept for a cluster
    is the same wherever its own points are the same, whichever others there are. -/
theorem accumulate_sums_up_by_label [Zero α] [Add α] {k epoch : Int} {labels : List Int}
    {points : Tensor α} {width : Nat} (hpoints : points.shape = [labels.length, width]) :
    (Aggregate.accumulate ⟨epoch, labels, points⟩ k = .error (.protocol (.labelOutOfRange k epoch))
      ↔ ∃ l ∈ labels, l < 0 ∨ k ≤ l) ∧
    ((∀ l ∈ labels, 0 ≤ l ∧ l < k) → ∃ p, Aggregate.accumulate ⟨epoch, labels, points⟩ k = .ok p ∧
      p.SumsUp width labels points.rowLists ∧ (p.map (·.2.count)).sum = labels.length ∧
      ∀ (k' epoch' : Int) (labels' : List Int) (points' : Tensor α) (width' : Nat) (p' : Partial α),
        points'.shape = [labels'.length, width'] →
        Aggregate.accumulate ⟨epoch', labels', points'⟩ k' = .ok p' →
        ∀ c, Aggregate.rowsOf c labels points.rowLists = Aggregate.rowsOf c labels' points'.rowLists →
          p.lookup c = p'.lookup c) := by
  refine ⟨⟨fun hfails => ?_, Aggregate.accumulate_of_outside⟩, fun hrange => ?_⟩
  · by_contra hin
    push Not at hin
    obtain ⟨p, hp, -⟩ := Aggregate.exists_accumulate_sumsUp epoch hpoints hin
    rw [hp] at hfails
    cases hfails
  · obtain ⟨p, hp, hsums, hcount⟩ := Aggregate.exists_accumulate_sumsUp epoch hpoints hrange
    refine ⟨p, hp, hsums, hcount, fun k' epoch' labels' points' width' p' hpoints' hp' c hrows => ?_⟩
    exact hsums.lookup_congr hpoints hpoints' (Aggregate.sumsUp_of_accumulate hpoints' hp') hrows

/-! ## Sums that depend on the order, and a label too large -/

namespace Aggregate.Sample

/-- The labels of four points: the last cluster has three of them, and the one in the middle none. -/
def labels : List Int := [2, 0, 2, 2]

def points : Tensor Float := .ofRowLists [1] [[1e16], [5], [1], [-1e16]]

/-- Points of which only the one of the first cluster is the same. -/
def others : Tensor Float := .ofRowLists [1] [[3], [5]]

end Aggregate.Sample

/-- A one that is added to a large number is lost, and it would not be in another order; the point of
    the first cluster is summed up alike among other points; and a label beyond the clusters is a
    breach of the rules. -/
theorem accumulate_sums_up_by_label_sample :
    (∃ p, Aggregate.accumulate ⟨0, Aggregate.Sample.labels, Aggregate.Sample.points⟩ 3 = .ok p ∧
      p.SumsUp 1 Aggregate.Sample.labels Aggregate.Sample.points.rowLists ∧
      (p.map (·.2.count)).sum = 4 ∧
      ∀ p', Aggregate.accumulate ⟨7, [1, 0], Aggregate.Sample.others⟩ 2 = .ok p' →
        p.lookup 0 = p'.lookup 0) ∧
    Aggregate.sumsOf 1 (Aggregate.rowsOf 2 Aggregate.Sample.labels Aggregate.Sample.points.rowLists)
      = [0] ∧
    Aggregate.accumulate ⟨5, Aggregate.Sample.labels, Aggregate.Sample.points⟩ 2
      = .error (.protocol (.labelOutOfRange 2 5)) := by
  have hshape : Aggregate.Sample.points.shape = [Aggregate.Sample.labels.length, 1] := rfl
  refine ⟨?_, by decide +kernel, (accumulate_sums_up_by_label hshape).1.2 ⟨2, by decide, by decide⟩⟩
  have hrange : ∀ l ∈ Aggregate.Sample.labels, 0 ≤ l ∧ l < 3 := by decide
  obtain ⟨p, hp, hsums, hcount, halone⟩ := (accumulate_sums_up_by_label hshape).2 hrange
  exact ⟨p, hp, hsums, hcount, fun p' hp' => halone 2 7 [1, 0] _ 1 p' rfl hp' 0 (by decide +kernel)⟩

end ClusterRounds
