/-
  ClusterRounds.Proofs.Euclidean

  The Euclidean matrix in two ways. The measure computes it from differences of rows, a measure
  that only knows single distances makes it out of the distance of each centroid to each
  point. The rows of a matrix are vectors (`Tensor.rows_of_shape`), and two vectors have a
  distance if their lengths are the same or one of them is one, with the coordinate repeated
  (`euclideanDistance_vector`). The differences are taken the other way round, so the two matrices
  are the same wherever a difference and its opposite have the same square.
-/

import ClusterRounds.Proofs.Course

namespace ClusterRounds

variable {α : Type}

/-- The common length of two axes is that of each of them, unless that is one. -/
theorem Shape.fits_of_joinAxis {a b width : Nat} (h : joinAxis a b = some width) :
    (a = width ∨ a = 1) ∧ (b = width ∨ b = 1) := by
  unfold joinAxis at h
  split at h
  · cases h
    exact ⟨.inl rfl, .inl (Eq.symm ‹_›)⟩
  · split at h
    · cases h
      exact ⟨.inr ‹_›, .inl rfl⟩
    · split at h
      · cases h
        exact ⟨.inl rfl, .inr ‹_›⟩
      · cases h

theorem Shape.joinAxis_comm (a b : Nat) : joinAxis a b = joinAxis b a := by
  unfold joinAxis
  split_ifs <;> simp_all

/-! ## Rows as vectors -/

namespace Tensor

theorem rowsFrom_eq {w : Nat} : ∀ {n : Nat} {xs : List α} (h : xs.length = n * Shape.size [w]),
    rowsFrom [w] n xs h = (pieces w n xs).map vector
  | 0, _, _ => rfl
  | n + 1, xs, h => by
    have hsize : Shape.size [w] = w := by simp
    have hlength : (xs.take w).length = w := by
      rw [List.length_take, h, hsize, Nat.add_mul]
      omega
    rw [rowsFrom, pieces, List.map_cons, rowsFrom_eq]
    simp only [hsize]
    congr 1
    exact Tensor.ext (by simp [vector, hlength]) rfl

/-- The rows of a matrix are vectors. -/
theorem rows_of_shape {t : Tensor α} {n w : Nat} (h : t.shape = [n, w]) :
    t.rows = t.rowLists.map vector := by
  rw [rowLists_of_shape h]
  unfold rows
  split
  · rename_i h'
    rw [h] at h'
    cases h'
  · rename_i h'
    rw [h] at h'
    cases h'
    rw [rowsFrom_eq]
    simp

end Tensor

/-! ## The distance of two vectors -/

namespace Measure

variable [Scalar α]

theorem widen_self (row : List α) : widen row.length row = row := if_pos rfl

theorem length_widen (width : Nat) (row : List α) : (widen width row).length = width := by
  unfold widen
  split
  · assumption
  · rw [List.length_replicate]

/-- A vector of one coordinate is repeated. -/
theorem stretchTo_vector {row : List α} {width : Nat} (h : row.length = width ∨ row.length = 1) :
    (Tensor.vector row).stretchTo [width] = .ok (.vector (widen width row)) := by
  have hpad : (Tensor.vector row).shape.padTo [width].length = [row.length] :=
    Shape.padTo_self [row.length]
  have hfills : ((Tensor.vector row).shape.padTo [width].length).Fills [width] :=
    hpad ▸ ⟨h, True.intro⟩
  have hentries : Tensor.stretch [row.length] [width] row = widen width row := by
    by_cases hwidth : row.length = width
    · subst hwidth
      rw [widen_self, Tensor.stretch_self _ _ (Nat.mul_one _).symm]
    · match row, h.resolve_left hwidth with
      | [x], _ =>
        have hwidth : ¬ 1 = width := hwidth
        simp [Tensor.stretch, widen, hwidth]
  unfold Tensor.stretchTo
  dsimp only
  rw [dif_pos hfills]
  refine congrArg Except.ok (Tensor.ext ?_ ?_)
  · exact congrArg (fun n => [n]) (length_widen width row).symm
  · show Tensor.stretch ((Tensor.vector row).shape.padTo [width].length) [width] row = widen width row
    rw [hpad, hentries]

theorem norm_zipSame_vector {a b : List α}
    (h : (Tensor.vector a).shape = (Tensor.vector b).shape) :
    norm (Tensor.zipSame (· - ·) (.vector a) (.vector b) h) = .ok (rowDistance a b) := rfl

/-- Two vectors have a distance if they have a common length. -/
theorem euclideanDistance_vector (a b : List α) :
    euclideanDistance (.vector a) (.vector b) =
      match Shape.joinAxis a.length b.length with
      | none => .error .shapesDiffer
      | some width => .ok (rowDistance (widen width a) (widen width b)) := by
  unfold euclideanDistance Tensor.zipWith
  by_cases hsame : a.length = b.length
  · have hshape : (Tensor.vector a).shape = (Tensor.vector b).shape := congrArg (fun n => [n]) hsame
    rw [dif_pos hshape]
    have hjoin : Shape.joinAxis a.length b.length = some a.length := if_pos hsame
    rw [hjoin]
    refine (norm_zipSame_vector hshape).trans (congrArg Except.ok ?_)
    rw [widen_self, hsame, widen_self]
  · have hshape : (Tensor.vector a).shape ≠ (Tensor.vector b).shape := fun h => hsame (List.cons.inj h).1
    rw [dif_neg hshape]
    have hjoin : Shape.join (Tensor.vector a).shape (Tensor.vector b).shape
        = (Shape.joinAxis a.length b.length).map ([·]) := by
      show Shape.joinAligned (Shape.padTo [a.length].length [a.length])
        (Shape.padTo [b.length].length [b.length]) = _
      rw [Shape.padTo_self, Shape.padTo_self]
      cases h : Shape.joinAxis a.length b.length <;> simp [Shape.joinAligned, h]
    rw [hjoin]
    cases h : Shape.joinAxis a.length b.length with
    | none => rfl
    | some width =>
      obtain ⟨ha, hb⟩ := Shape.fits_of_joinAxis h
      have hwidths : (Tensor.vector (widen width a)).shape = (Tensor.vector (widen width b)).shape := by
        show [_] = [_]
        rw [length_widen, length_widen]
      simp only [Option.map_some, stretchTo_vector ha, stretchTo_vector hb, dif_pos hwidths]
      exact norm_zipSame_vector hwidths

/-! ## The two matrices -/

section Matrices

variable {points centroids : Tensor α} {n w k w' : Nat}

omit [Scalar α] in
/-- The rows of the matrix are lists of distances of vectors. -/
theorem elementwise_of_shape (hpoints : points.shape = [n, w]) (hcentroids : centroids.shape = [k, w'])
    (distance : Tensor α → Tensor α → Except OperandFault α) :
    elementwise distance points centroids = points.rowLists.mapM fun point =>
      centroids.rowLists.mapM fun centroid => distance (.vector centroid) (.vector point) := by
  unfold elementwise
  rw [Tensor.rowCount_of_shape hpoints, Tensor.rowCount_of_shape hcentroids,
    Tensor.rows_of_shape hpoints, Tensor.rows_of_shape hcentroids]
  simp only [List.mapM_map]
  rfl

theorem euclideanMatrix_of_shape (hpoints : points.shape = [n, w])
    (hcentroids : centroids.shape = [k, w']) :
    euclideanMatrix points centroids =
      match Shape.joinAxis w w' with
      | none => .error .shapesDiffer
      | some width => .ok (points.rowLists.map fun point => centroids.rowLists.map fun centroid =>
          rowDistance (widen width point) (widen width centroid)) := by
  unfold euclideanMatrix
  rw [Tensor.width_of_shape hpoints, Tensor.width_of_shape hcentroids,
    Tensor.rank_of_shape hpoints, Tensor.rank_of_shape hcentroids]
  cases h : Shape.joinAxis w w' with
  | none => simp [h, bind, Except.bind, throw, throwThe, MonadExceptOf.throw]
  | some width => simp [h, bind, Except.bind, pure, Except.pure, Function.comp_def]

variable (hsquare : ∀ x y : α, (x - y) * (x - y) = (y - x) * (y - x))

include hsquare

theorem rowDistance_comm (a b : List α) : rowDistance a b = rowDistance b a := by
  have hsum : ∀ (a b : List α) (s : α),
      (List.zipWith (· - ·) a b).foldl (fun s x => s + x * x) s
        = (List.zipWith (· - ·) b a).foldl (fun s x => s + x * x) s := by
    intro a
    induction a with
    | nil => intro b s; simp
    | cons x a ih =>
      intro b s
      cases b with
      | nil => rfl
      | cons y b => simp only [List.zipWith_cons_cons, List.foldl_cons, hsquare x y, ih]
  exact congrArg Scalar.root (hsum a b 0)

/-- Where a difference and its opposite have the same square, the Euclidean distances make up the
    Euclidean matrix: of any points, and of none if they are as wide as the centroids. -/
theorem elementwise_euclideanDistance (hpoints : points.shape = [n, w])
    (hcentroids : centroids.shape = [k, w']) (hk : 0 < k) (hn : n = 0 → w = w') :
    elementwise euclideanDistance points centroids = euclideanMatrix points centroids := by
  have hlength {t : Tensor α} {n w : Nat} (ht : t.shape = [n, w]) : ∀ row ∈ t.rowLists, row.length = w :=
    fun row hrow => by simpa using Tensor.length_of_mem_rowLists ht hrow
  rw [elementwise_of_shape hpoints hcentroids, euclideanMatrix_of_shape hpoints hcentroids]
  cases hjoin : Shape.joinAxis w w' with
  | none =>
    -- no distance can be taken, and there is one at least
    have hpos : n ≠ 0 := fun h => by
      rw [hn h, Shape.joinAxis, if_pos rfl] at hjoin
      cases hjoin
    refine mapM_eq_error_of_forall (mt (Tensor.rowLists_eq_nil_iff hpoints).1 hpos) fun point hpoint =>
      mapM_eq_error_of_forall (mt (Tensor.rowLists_eq_nil_iff hcentroids).1 (Nat.ne_of_gt hk)) fun centroid hc => ?_
    rw [euclideanDistance_vector, hlength hcentroids centroid hc, hlength hpoints point hpoint,
      Shape.joinAxis_comm, hjoin]
  | some width =>
    refine mapM_eq_ok_map fun point hpoint => mapM_eq_ok_map fun centroid hcentroid => ?_
    rw [euclideanDistance_vector, hlength hcentroids centroid hcentroid, hlength hpoints point hpoint,
      Shape.joinAxis_comm, hjoin]
    exact congrArg Except.ok (rowDistance_comm hsquare _ _)

end Matrices

end Measure

end ClusterRounds
