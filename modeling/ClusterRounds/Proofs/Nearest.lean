/-
  ClusterRounds.Proofs.Nearest

  Which centroid is the nearest. In a row of distances that are doubles it is the first undefined
  one, or else the first that is at most as large as all (`firstNearest`), and this is what
  the search finds whatever the doubles are (`Scalar.argMin_eq_firstNearest`). Labels that are
  read off row by row do not depend on what other points there are (`Measure.GoesByRow.nearest_stack`),
  nor, with exact numbers, on which of the two Euclidean matrices they are read off.
-/

import ClusterRounds.Proofs.Coherence
import ClusterRounds.Proofs.Comparing
import ClusterRounds.Proofs.Euclidean
import Mathlib.Tactic.Ring

namespace ClusterRounds

variable {α : Type}

/-! ## The first least of a row of doubles -/

/-- The first place of an undefined distance; if there is none, the first place of a distance that is
    at most as large as all. -/
def firstNearest (row : List Float) : Nat :=
  if row.any Float.isNaN then row.findIdx Float.isNaN
  else row.findIdx fun d => row.all fun other => d ≤ other

theorem findIdx_append_cons {p : α → Bool} {front back : List α} {x : α}
    (hfront : ∀ y ∈ front, p y = false) (hx : p x = true) :
    (front ++ x :: back).findIdx p = front.length := by
  rw [List.findIdx_append, List.findIdx_eq_length.2 hfront, if_neg (Nat.lt_irrefl _),
    List.findIdx_cons, hx]
  exact Nat.zero_add _

/-- Whatever the doubles are, the search ends at the first nearest. -/
theorem Scalar.argMin_eq_firstNearest {row : List Float} (h : row ≠ []) :
    Scalar.argMin row = .ok (firstNearest row) ∧ firstNearest row < row.length := by
  obtain ⟨front, x, back, rfl, hplace, hfront, hback⟩ :=
    Scalar.argMin_splits Number.isLess_iff_place h
  suffices hnearest : firstNearest (front ++ x :: back) = front.length by
    rw [hplace, hnearest]
    exact ⟨rfl, by simp⟩
  have hleast : ∀ y ∈ front ++ x :: back, Number.place x ≤ Number.place y := by
    intro y hy
    rcases List.mem_append.1 hy with hy | hy
    · exact (hfront y hy).le
    · rcases List.mem_cons.1 hy with rfl | hy
      · exact le_rfl
      · exact hback y hy
  unfold firstNearest
  cases hx : x.isNaN with
  | true =>
    have hsome : (front ++ x :: back).any Float.isNaN = true :=
      List.any_eq_true.2 ⟨x, List.mem_append_right _ List.mem_cons_self, hx⟩
    rw [if_pos hsome]
    refine findIdx_append_cons (fun y hy => ?_) hx
    -- an undefined one in front would not be of greater rank
    rw [← Bool.not_eq_true]
    exact fun hy' => (hfront y hy).ne (Number.place_eq_of_isNaN hx hy')
  | false =>
    have hall : ∀ y ∈ front ++ x :: back, y.isNaN = false := by
      intro y hy
      rw [← Bool.not_eq_true]
      exact fun hy' => (Number.place_lt_of_isNaN hy' hx).not_ge (hleast y hy)
    have hnone : ¬ (front ++ x :: back).any Float.isNaN = true := by
      rw [List.any_eq_true]
      rintro ⟨y, hy, hy'⟩
      exact absurd hy' (Bool.eq_false_iff.1 (hall y hy))
    rw [if_neg hnone]
    refine findIdx_append_cons (fun y hy => ?_) ?_
    · have hy' : y ∈ front ++ x :: back := List.mem_append_left _ hy
      rw [← Bool.not_eq_true, List.all_eq_true]
      intro h
      have hyx : y ≤ x := of_decide_eq_true (h x (by simp))
      exact (hfront y hy).not_ge ((Number.le_iff_place (hall y hy') hx).1 hyx)
    · rw [List.all_eq_true]
      exact fun y hy => decide_eq_true ((Number.le_iff_place hx (hall y hy)).2 (hleast y hy))

/-! ## Labels of all points -/

namespace Measure

/-- The measure answers with a row for each point that has a distance for each centroid; without
    points it is not asked. -/
structure Fills (m : Measure α) (call : Nat) (points centroids : Tensor α) (n k : Nat)
    (matrix : DistanceMatrix α) : Prop where
  points_eq : points.rowCount = .ok n
  centroids_eq : centroids.rowCount = .ok k
  length_eq : matrix.length = n
  row_length : ∀ row ∈ matrix, row.length = k
  pairwise_eq : 0 < n → m.pairwise call points centroids = .ok matrix

/-- What a measure answers about points, if it answers at all, is made of each of them alone. -/
def GoesByRow (m : Measure α) (row : List α → List α) (centroids points : Tensor α) : Prop :=
  ∀ call, 0 < points.rowTotal → m.pairwise call points centroids = .ok (points.rowLists.map row)

section Labelling

variable [Scalar α] {m : Measure α} {call n k : Nat} {points centroids : Tensor α}
  {matrix : DistanceMatrix α}

/-- The labels are read off the matrix. -/
theorem Fills.nearest_eq (h : m.Fills call points centroids n k matrix) :
    m.nearest call points centroids = .ofOperands (labels matrix) := by
  by_cases hn : n = 0
  · obtain rfl : matrix = [] := List.eq_nil_of_length_eq_zero (h.length_eq.trans hn)
    exact m.nearest_of_no_rows call centroids (hn ▸ h.points_eq)
  · unfold nearest
    rw [h.points_eq, h.pairwise_eq (Nat.pos_of_ne_zero hn)]
    simp only [bind, Except.bind, ofOperands_ok, if_neg hn]

theorem GoesByRow.nearest_eq {row : List α → List α} (h : m.GoesByRow row centroids points)
    (hpoints : points.shape ≠ []) (call : Nat) :
    m.nearest call points centroids = .ofOperands (labels (points.rowLists.map row)) := by
  obtain ⟨n, hn⟩ := Tensor.exists_shape_of_ne hpoints
  have hrows := Tensor.rowCount_of_shape hn
  by_cases hzero : n = 0
  · rw [(Tensor.rowLists_eq_nil_iff hn).2 hzero]
    exact m.nearest_of_no_rows call centroids (hzero ▸ hrows)
  · unfold nearest
    rw [hrows, h call (by rw [Tensor.rowTotal_of_shape hn]; exact Nat.pos_of_ne_zero hzero)]
    simp only [bind, Except.bind, ofOperands_ok, if_neg hzero]

/-- The labels of points that were put together are those of the parts, whenever the measure is
    asked about which of them. -/
theorem nearest_stack {p q both : Tensor α} {row : List α → List α}
    (hboth : Tensor.stack [p, q] = .ok both) (h : ∀ t ∈ [p, q, both], m.GoesByRow row centroids t)
    (call call' call'' : Nat) :
    m.nearest call both centroids = (do
      return (← m.nearest call' p centroids) ++ (← m.nearest call'' q centroids)) := by
  obtain ⟨hp, hq, hrows, -⟩ := by simpa only [List.forall_mem_cons] using h
  obtain ⟨hshapes, heq⟩ := Tensor.stack_eq_ok hboth
  have hshape : ∀ t ∈ [p, q], t.shape ≠ [] := by
    intro t ht
    obtain ⟨n, hn⟩ := hshapes t ht
    exact hn ▸ List.cons_ne_nil _ _
  have hshape' : both.shape ≠ [] := heq ▸ List.cons_ne_nil _ _
  rw [hp.nearest_eq (hshape p (by simp)), hq.nearest_eq (hshape q (by simp)), hrows.nearest_eq hshape',
    (Tensor.rowLists_stack hboth).1]
  simp only [List.flatMap_cons, List.flatMap_nil, List.append_nil, List.map_append, labels,
    List.mapM_append]
  cases (p.rowLists.map row).mapM Scalar.argMin with
  | error e => rfl
  | ok ls => cases (q.rowLists.map row).mapM Scalar.argMin <;> rfl

/-- Either Euclidean matrix has the same labels, whenever its measure is asked. -/
theorem nearest_euclideanDistance (hsquare : ∀ x y : α, (x - y) * (x - y) = (y - x) * (y - x))
    (className : String) {w w' : Nat} (hpoints : points.shape = [n, w])
    (hcentroids : centroids.shape = [k, w']) (hk : 0 < k) (call call' : Nat) :
    (ofDistance className euclideanDistance).nearest call points centroids
      = (euclidean className).nearest call' points centroids := by
  have hrows := Tensor.rowCount_of_shape hpoints
  by_cases hn : n = 0
  · subst hn
    rw [nearest_of_no_rows _ call centroids hrows, nearest_of_no_rows _ call' centroids hrows]
  · unfold nearest ofDistance euclidean
    simp only [elementwise_euclideanDistance hsquare hpoints hcentroids hk fun h => absurd h hn]

end Labelling

/-- With a matrix that has a row for each point and an entry for each of the centroids, of which
    there is one at least, every point gets the first nearest of its row, which is one of the
    centroids. If the measure goes row by row, points that were put together have the labels of the
    parts, one after the other. And where a difference and its opposite have the same square, the
    Euclidean measure answers as the one that only knows its single distances does, and gives
    the same labels; without points the matrices are the same if they are of one width. -/
theorem nearest_takes_first_least :
    (∀ (m : Measure Float) (call : Nat) (points centroids : Tensor Float) (n k : Nat)
      (matrix : DistanceMatrix Float), m.Fills call points centroids n k matrix → 0 < k →
        m.nearest call points centroids = .ok (matrix.map firstNearest) ∧
        (matrix.map firstNearest).length = n ∧ ∀ l ∈ matrix.map firstNearest, l < k) ∧
    (∀ (m : Measure Float) (row : List Float → List Float) (p q both centroids : Tensor Float),
      Tensor.stack [p, q] = .ok both → (∀ t ∈ [p, q, both], m.GoesByRow row centroids t) →
        ∀ call call' call'', m.nearest call both centroids = (do
          return (← m.nearest call' p centroids) ++ (← m.nearest call'' q centroids))) ∧
    ∀ {α : Type} [Scalar α], (∀ x y : α, (x - y) * (x - y) = (y - x) * (y - x)) →
      ∀ (className : String) (points centroids : Tensor α) (n w k w' : Nat),
        points.shape = [n, w] → centroids.shape = [k, w'] → 0 < k → ∀ call call',
          ((n = 0 → w = w') → (ofDistance className euclideanDistance).pairwise call points centroids
            = (euclidean className).pairwise call' points centroids) ∧
          (ofDistance className euclideanDistance).nearest call points centroids
            = (euclidean className).nearest call' points centroids := by
  refine ⟨fun m call points centroids n k matrix h hk => ?_, ?_, ?_⟩
  · have hplaces : ∀ row ∈ matrix, Scalar.argMin row = .ok (firstNearest row) ∧ firstNearest row < k := by
      intro row hrow
      have hlength := h.row_length row hrow
      exact hlength ▸ Scalar.argMin_eq_firstNearest (List.ne_nil_of_length_pos (hlength ▸ hk))
    refine ⟨?_, (List.length_map _).trans h.length_eq, List.forall_mem_map.2 fun row hrow => ?_⟩
    · rw [h.nearest_eq, labels, mapM_eq_ok_map fun row hrow => (hplaces row hrow).1, ofOperands_ok]
    · exact (hplaces row hrow).2
  · intro m row p q both centroids hboth h call call' call''
    exact nearest_stack hboth h call call' call''
  · intro α _ hsquare className points centroids n w k w' hpoints hcentroids hk call call'
    refine ⟨fun hn => ?_, nearest_euclideanDistance hsquare className hpoints hcentroids hk call call'⟩
    exact congrArg Outcome.ofOperands
      (elementwise_euclideanDistance hsquare hpoints hcentroids hk hn)

/-! ## Ties, and a distance that is none -/

namespace Sample

/-- A measure that has one matrix for all questions. -/
def fixed (matrix : DistanceMatrix Float) : Measure Float where
  className := "Fixed"
  distance _ _ := .ok 0
  pairwise _ _ _ := .ok matrix
  delay _ := 0

/-- A tie behind a larger distance, and two undefined distances behind the least one. -/
def distances : DistanceMatrix Float := [[2, 1, 1], [-1 / 0, 0 / 0, 0 / 0]]

def column (xs : List Float) : Tensor Float := .ofRowLists [1] (xs.map ([·]))

def centroids : Tensor Float := column [0, 1, 2]

def euclid : Measure Float := euclidean "Euclidean"

/-- Two points, or two centroids, with exact coordinates. -/
def exact (x y : Rat) : Tensor Rat := .ofRowLists [1] [[x], [y]]

theorem fills_distances : (fixed distances).Fills 0 (column [0, 1]) centroids 2 3 distances :=
  ⟨rfl, rfl, rfl, by decide, fun _ => rfl⟩

/-- The distances of a point to the centroids. -/
def row (point : List Float) : List Float := centroids.rowLists.map (rowDistance point)

theorem goesByRow_euclid {points : Tensor Float} (hrank : points.rank = 2)
    (hinner : points.innerShape = [1]) : euclid.GoesByRow row centroids points :=
  fun call _ => (rowByRow_euclidean "Euclidean" call points centroids hrank rfl hinner).1

end Sample

/-- The first of equal distances wins, and the first undefined one wins over all. Points that are put
    together have the labels of the parts, and single distances have those of the matrix. -/
theorem nearest_takes_first_least_sample :
    (Sample.fixed Sample.distances).nearest 0 (Sample.column [0, 1]) Sample.centroids
      = .ok [1, 1] ∧
    Sample.euclid.nearest 2 (Sample.column [0, 3]) Sample.centroids = (do
      return (← Sample.euclid.nearest 0 (Sample.column [0]) Sample.centroids)
        ++ (← Sample.euclid.nearest 1 (Sample.column [3]) Sample.centroids)) ∧
    (ofDistance "Euclidean" euclideanDistance).nearest 0 (Sample.exact 1 4) (Sample.exact 0 3)
      = (euclidean "Euclidean").nearest 0 (Sample.exact 1 4) (Sample.exact 0 3) := by
  obtain ⟨hfirst, happend, hexact⟩ := nearest_takes_first_least
  refine ⟨?_, ?_, ?_⟩
  · have hlabels : Sample.distances.map firstNearest = [1, 1] := by decide +kernel
    rw [← hlabels]
    exact (hfirst _ 0 _ _ 2 3 _ Sample.fills_distances (by decide)).1
  · refine happend _ Sample.row (Sample.column [0]) (Sample.column [3]) _ _ rfl ?_ 2 0 1
    simp only [List.forall_mem_cons]
    exact ⟨Sample.goesByRow_euclid rfl rfl, Sample.goesByRow_euclid rfl rfl,
      Sample.goesByRow_euclid rfl rfl, fun _ h => nomatch h⟩
  · exact (hexact (fun x y => by ring) "Euclidean" _ _ 2 1 2 1 rfl rfl Nat.two_pos 0 0).2

end Measure

end ClusterRounds
