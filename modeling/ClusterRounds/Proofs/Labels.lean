/-
  ClusterRounds.Proofs.Labels

  Labels out of any numbers. The search for the least of a row always ends at a place of
  the row, whatever the numbers are and however they compare. So a measure that answers
  with a matrix of the right size, which is all that `Answers` asks of it, gives every
  point the label of a centroid.
-/

import ClusterRounds.Proofs.Boundary
import Mathlib.Order.Lattice

namespace ClusterRounds

variable {α : Type}

/-- Asked about points and centroids of one width, the measure answers with a row for each point
    that has a number for each centroid. -/
def Measure.Answers (m : Measure α) : Prop :=
  ∀ (call : Nat) (points centroids : Tensor α) (n k width : Nat), points.shape = [n, width] →
    centroids.shape = [k, width] → 0 < n → 0 < k → 0 < width →
    ∃ matrix, m.pairwise call points centroids = .ok matrix ∧ matrix.length = n ∧
      ∀ row ∈ matrix, row.length = k

/-- So does the measure answer about points and centroids of one particular width, which may be
    none. -/
def Measure.AnswersAt (m : Measure α) (width : Nat) : Prop :=
  ∀ (call : Nat) (points centroids : Tensor α) (n k : Nat), points.shape = [n, width] →
    centroids.shape = [k, width] → 0 < n → 0 < k →
    ∃ matrix, m.pairwise call points centroids = .ok matrix ∧ matrix.length = n ∧
      ∀ row ∈ matrix, row.length = k

theorem Measure.Answers.at_width {m : Measure α} (h : m.Answers) {width : Nat} (hwidth : 0 < width) :
    m.AnswersAt width :=
  fun call points centroids n k hpoints hcentroids hn hk =>
    h call points centroids n k width hpoints hcentroids hn hk hwidth

/-- A measure that goes row by row answers about rows without coordinates, too. -/
theorem Measure.RowByRow.answersAt {m : Measure α} {row : Tensor α → List α → List α}
    (h : m.RowByRow row) (width : Nat) : m.AnswersAt width := by
  intro call points centroids n k hpoints hcentroids _ _
  have hinner : points.innerShape = centroids.innerShape := by
    rw [Tensor.innerShape_of_shape hpoints, Tensor.innerShape_of_shape hcentroids]
  obtain ⟨hmatrix, hlength⟩ := h call points centroids (Tensor.rank_of_shape hpoints)
    (Tensor.rank_of_shape hcentroids) hinner
  refine ⟨_, hmatrix, by rw [List.length_map, Tensor.length_rowLists hpoints], fun entries he => ?_⟩
  obtain ⟨point, hpoint, rfl⟩ := List.mem_map.1 he
  rw [hlength point hpoint, Tensor.rowTotal_of_shape hcentroids]

theorem Measure.RowByRow.answers {m : Measure α} {row : Tensor α → List α → List α}
    (h : m.RowByRow row) : m.Answers :=
  fun call points centroids n k width hpoints hcentroids hn hk _ =>
    h.answersAt width call points centroids n k hpoints hcentroids hn hk

/-! ## Measures out of single distances -/

/-- The rows of an array: as many as its first axis is long, and of the shape of the others. -/
theorem Tensor.rowsFrom_spec {inner : Shape} :
    ∀ {n : Nat} {xs : List α} (h : xs.length = n * inner.size),
      (rowsFrom inner n xs h).length = n ∧ ∀ row ∈ rowsFrom inner n xs h, row.shape = inner
  | 0, _, _ => ⟨rfl, fun _ h => nomatch h⟩
  | n + 1, xs, h => by
    have hrest : (xs.drop inner.size).length = n * inner.size := by
      rw [List.length_drop, h, Nat.add_mul]
      omega
    obtain ⟨hlength, hshape⟩ := rowsFrom_spec hrest
    rw [rowsFrom, List.forall_mem_cons, List.length_cons, hlength]
    exact ⟨rfl, rfl, hshape⟩

theorem Tensor.rows_spec {t : Tensor α} {n : Nat} {inner : Shape} (h : t.shape = n :: inner) :
    t.rows.length = n ∧ ∀ row ∈ t.rows, row.shape = inner := by
  unfold rows
  split
  · rename_i h'
    rw [h] at h'
    cases h'
  · rename_i h'
    rw [h] at h'
    cases h'
    exact rowsFrom_spec _

/-- A distance that any two vectors of one length have makes a measure that answers. -/
theorem Measure.answers_ofDistance (className : String)
    {distance : Tensor α → Tensor α → Except OperandFault α}
    (h : ∀ (w : Nat) (a b : Tensor α), a.shape = [w] → b.shape = [w] → ∃ d, distance a b = .ok d) :
    (Measure.ofDistance className distance).Answers := by
  intro call points centroids n k width hpoints hcentroids _ _ _
  obtain ⟨hlength, hshape⟩ := Tensor.rows_spec hpoints
  obtain ⟨hlength', hshape'⟩ := Tensor.rows_spec hcentroids
  -- a row of the matrix is what one point makes of all centroids
  have hrow : ∀ point ∈ points.rows, ∃ row,
      centroids.rows.mapM (fun centroid => distance centroid point) = .ok row ∧ row.length = k := by
    intro point hpoint
    obtain ⟨row, hrow, hcount, -⟩ := exists_mapM_eq_ok (P := fun _ => True) fun centroid hc => by
      obtain ⟨d, hd⟩ := h width centroid point (hshape' centroid hc) (hshape point hpoint)
      exact ⟨d, hd, True.intro⟩
    exact ⟨row, hrow, hcount.trans hlength'⟩
  obtain ⟨matrix, hmatrix, hcount, hrows⟩ := exists_mapM_eq_ok hrow
  refine ⟨matrix, ?_, hcount.trans hlength, hrows⟩
  show Outcome.ofOperands (elementwise distance points centroids) = _
  unfold elementwise
  rw [Tensor.rowCount_of_shape hpoints, Tensor.rowCount_of_shape hcentroids]
  exact congrArg Outcome.ofOperands hmatrix

/-! ## The search for the least -/

section Search

variable [Scalar α]

/-- The search goes through the places of the row and one more. -/
theorem Scalar.argMinFrom_lt :
    ∀ (rest : List α) (least : α) (place i : Nat), place < i →
      Scalar.argMinFrom least place i rest < i + rest.length
  | [], _, _, _, h => h
  | x :: rest, least, place, i, h => by
    have hlength : i + (x :: rest).length = i + 1 + rest.length := by
      rw [List.length_cons]
      omega
    unfold Scalar.argMinFrom
    rw [hlength]
    split
    · exact argMinFrom_lt rest x i (i + 1) (Nat.lt_succ_self i)
    · exact argMinFrom_lt rest least place (i + 1) (Nat.lt_succ_of_lt h)

theorem Scalar.exists_argMin {row : List α} (h : row ≠ []) :
    ∃ p < row.length, Scalar.argMin row = .ok p := by
  match row with
  | x :: rest =>
    refine ⟨_, ?_, rfl⟩
    have := argMinFrom_lt rest x 0 1 Nat.one_pos
    rw [List.length_cons]
    omega

section Rank

variable {β : Type} [LinearOrder β] {rank : α → β}

/-- The search goes on from the first least entry of what it has seen: the entries before it are
    greater, those behind it not less. -/
theorem Scalar.argMinFrom_splits (hrank : ∀ x y, isLess x y = true ↔ rank x < rank y) :
    ∀ (rest before between : List α) (least : α), (∀ y ∈ before, rank least < rank y) →
      (∀ y ∈ between, rank least ≤ rank y) → ∃ front x back,
        before ++ least :: (between ++ rest) = front ++ x :: back ∧
        Scalar.argMinFrom least before.length (before ++ least :: between).length rest
          = front.length ∧
        (∀ y ∈ front, rank x < rank y) ∧ ∀ y ∈ back, rank x ≤ rank y
  | [], before, between, least, hbefore, hbetween =>
    ⟨before, least, between, by rw [List.append_nil], rfl, hbefore, hbetween⟩
  | x :: rest, before, between, least, hbefore, hbetween => by
    unfold Scalar.argMinFrom
    split
    · -- the entry is less than the least so far, and with it than all before
      rename_i hless
      have hless : rank x < rank least := (hrank x least).1 hless
      have hseen : ∀ y ∈ before ++ least :: between, rank x < rank y := by
        intro y hy
        rcases List.mem_append.1 hy with hy | hy
        · exact hless.trans (hbefore y hy)
        · rcases List.mem_cons.1 hy with rfl | hy
          · exact hless
          · exact hless.trans_le (hbetween y hy)
      have hnext := argMinFrom_splits hrank rest (before ++ least :: between) [] x hseen (by simp)
      simpa [Nat.add_assoc] using hnext
    · rename_i hless
      have hle : rank least ≤ rank x := not_lt.1 (mt (hrank x least).2 hless)
      have hbetween' : ∀ y ∈ between ++ [x], rank least ≤ rank y := by
        intro y hy
        rcases List.mem_append.1 hy with hy | hy
        · exact hbetween y hy
        · exact List.mem_singleton.1 hy ▸ hle
      have hnext := argMinFrom_splits hrank rest before (between ++ [x]) least hbefore hbetween'
      simpa [Nat.add_assoc] using hnext

/-- The search finds the first of the entries with the least rank. -/
theorem Scalar.argMin_splits (hrank : ∀ x y, isLess x y = true ↔ rank x < rank y) {row : List α}
    (h : row ≠ []) : ∃ front x back, row = front ++ x :: back ∧
      Scalar.argMin row = .ok front.length ∧
      (∀ y ∈ front, rank x < rank y) ∧ ∀ y ∈ back, rank x ≤ rank y := by
  match row with
  | x :: rest =>
    obtain ⟨front, y, back, hsplit, hplace, hfront, hback⟩ :=
      argMinFrom_splits hrank rest [] [] x (by simp) (by simp)
    exact ⟨front, y, back, hsplit, congrArg Except.ok hplace, hfront, hback⟩

end Rank

/-- A matrix with a column has a label for each row, and each label names a column. -/
theorem Measure.exists_labels {k : Nat} (hk : 0 < k) {matrix : DistanceMatrix α}
    (h : ∀ row ∈ matrix, row.length = k) :
    ∃ labels, Measure.labels matrix = .ok labels ∧ labels.length = matrix.length ∧
      ∀ l ∈ labels, l < k := by
  refine exists_mapM_eq_ok fun row hrow => ?_
  have hlength := h row hrow
  obtain ⟨p, hp, harg⟩ := Scalar.exists_argMin (List.ne_nil_of_length_pos (hlength ▸ hk))
  exact ⟨p, harg, hlength ▸ hp⟩

/-- Every point gets the label of a centroid. -/
theorem Measure.AnswersAt.nearest {m : Measure α} {n w k width : Nat} (h : m.AnswersAt width)
    (call : Nat) {points centroids : Tensor α} (hpoints : points.shape = [n, w])
    (hcentroids : centroids.shape = [k, width]) (hsuits : n = 0 ∨ w = width) (hk : 0 < k) :
    ∃ labels, m.nearest call points centroids = .ok labels ∧ labels.length = n ∧
      ∀ l ∈ labels, l < k := by
  by_cases hn : n = 0
  · subst hn
    exact ⟨[], m.nearest_of_no_rows call centroids (Tensor.rowCount_of_shape hpoints), rfl, by simp⟩
  · obtain rfl : w = width := hsuits.resolve_left hn
    obtain ⟨matrix, hmatrix, hlength, hrows⟩ := h call points centroids n k hpoints hcentroids
      (Nat.pos_of_ne_zero hn) hk
    obtain ⟨labels, hlabels, hcount, hlt⟩ := exists_labels hk hrows
    refine ⟨labels, ?_, hcount.trans hlength, hlt⟩
    unfold Measure.nearest
    simp [Tensor.rowCount_of_shape hpoints, hn, hmatrix, hlabels, bind, Except.bind]

end Search

end ClusterRounds
