/-
  ClusterRounds.Proofs.Tensor

  Arrays as lists of rows. An array with axes and the list of its rows determine each
  other, so that what is said about a matrix can be said about rows, and the other way
  round. Putting a single array together gives that array.
-/

import ClusterRounds.Tensor.Basic

namespace ClusterRounds

/-- Pieces of one width put together and cut again. -/
theorem pieces_flatten {α : Type} {width : Nat} :
    ∀ rows : List (List α), (∀ row ∈ rows, row.length = width) →
      pieces width rows.length rows.flatten = rows
  | [], _ => rfl
  | row :: rows, h => by
    have hrow : row.length = width := h row (by simp)
    have ih := pieces_flatten rows fun r hr => h r (by simp [hr])
    simp only [List.length_cons, pieces, List.flatten_cons]
    rw [← hrow, List.take_left, List.drop_left, hrow, ih]

namespace Shape

theorem fills_self : ∀ s : Shape, s.Fills s
  | [] => trivial
  | _ :: s => ⟨.inl rfl, fills_self s⟩

theorem padTo_self (s : Shape) : s.padTo s.length = s := by
  simp [padTo]

end Shape

namespace Tensor

variable {α β γ : Type} {t : Tensor α} {n w : Nat} {inner : Shape}

@[ext] theorem ext {t u : Tensor α} (hs : t.shape = u.shape) (he : t.entries = u.entries) :
    t = u := by
  cases t
  cases u
  simp only at hs he
  subst hs he
  rfl

/-! ## Lengths of axes -/

theorem rowCount_of_shape (h : t.shape = n :: inner) : t.rowCount = .ok n := by
  simp [rowCount, axis, h]

theorem exists_shape_of_rowCount (h : t.rowCount = .ok n) : ∃ inner, t.shape = n :: inner := by
  unfold rowCount axis at h
  cases hs : t.shape with
  | nil =>
    rw [hs] at h
    cases h
  | cons m inner =>
    rw [hs] at h
    cases h
    exact ⟨inner, rfl⟩

theorem rowTotal_of_shape (h : t.shape = n :: inner) : t.rowTotal = n := by
  simp [rowTotal, h]

theorem width_of_shape (h : t.shape = n :: w :: inner) : t.width = .ok w := by
  simp [width, axis, h]

theorem innerShape_of_shape (h : t.shape = n :: inner) : t.innerShape = inner := by
  simp [innerShape, h]

theorem exists_shape_of_rank_two (h : t.rank = 2) : ∃ n w, t.shape = [n, w] := by
  unfold rank at h
  match hs : t.shape with
  | [n, w] => exact ⟨n, w, rfl⟩
  | [] | [_] | _ :: _ :: _ :: _ => rw [hs] at h; simp at h

theorem rank_of_shape (h : t.shape = [n, w]) : t.rank = 2 := by
  simp [rank, h]

theorem length_entries_of_shape (h : t.shape = [n, w]) : t.entries.length = n * w := by
  rw [t.length_entries, h]
  simp

/-! ## Rows -/

theorem rowLists_of_shape (h : t.shape = n :: inner) :
    t.rowLists = pieces inner.size n t.entries := by
  unfold rowLists
  rw [h]

theorem length_rowLists (h : t.shape = n :: inner) : t.rowLists.length = n := by
  rw [rowLists_of_shape h, length_pieces]

theorem length_entries_cons (h : t.shape = n :: inner) :
    t.entries.length = n * inner.size := by
  rw [t.length_entries, h, Shape.size_cons]

theorem length_of_mem_rowLists (h : t.shape = n :: inner) {row : List α}
    (hr : row ∈ t.rowLists) : row.length = inner.size := by
  rw [rowLists_of_shape h] at hr
  exact length_of_mem_pieces _ _ _ (length_entries_cons h) row hr

theorem flatten_rowLists (h : t.shape = n :: inner) : t.rowLists.flatten = t.entries := by
  rw [rowLists_of_shape h]
  exact flatten_pieces _ _ _ (length_entries_cons h)

theorem rowLists_eq_nil_iff (h : t.shape = n :: inner) : t.rowLists = [] ↔ n = 0 := by
  rw [← List.length_eq_zero_iff, length_rowLists h]

/-! ## Arrays out of rows -/

section OfRows

variable {rows : List (List α)} (hrows : ∀ row ∈ rows, row.length = inner.size)

include hrows

theorem filter_ofRowLists : rows.filter (·.length = inner.size) = rows := by
  rw [List.filter_eq_self]
  intro row hr
  simpa using hrows row hr

theorem shape_ofRowLists : (ofRowLists inner rows).shape = rows.length :: inner := by
  simp only [ofRowLists, filter_ofRowLists hrows]

theorem entries_ofRowLists : (ofRowLists inner rows).entries = rows.flatten := by
  simp only [ofRowLists, filter_ofRowLists hrows]

theorem rowLists_ofRowLists : (ofRowLists inner rows).rowLists = rows := by
  rw [rowLists_of_shape (shape_ofRowLists hrows), entries_ofRowLists hrows]
  exact pieces_flatten rows hrows

end OfRows

theorem ofRowLists_rowLists (h : t.shape = n :: inner) : ofRowLists inner t.rowLists = t := by
  have hrows : ∀ row ∈ t.rowLists, row.length = inner.size := fun _ => length_of_mem_rowLists h
  apply ext
  · rw [shape_ofRowLists hrows, length_rowLists h, h]
  · rw [entries_ofRowLists hrows, flatten_rowLists h]

/-- Arrays with rows of one shape are stacked row by row. -/
theorem stack_of_shapes {ts : List (Tensor α)} (hne : ts ≠ [])
    (h : ∀ u ∈ ts, ∃ n, u.shape = n :: inner) :
    stack ts = .ok (ofRowLists inner (ts.flatMap rowLists)) := by
  obtain ⟨t, rest, rfl⟩ := List.exists_cons_of_ne_nil hne
  obtain ⟨n, ht⟩ := h t List.mem_cons_self
  have hall : rest.all (fun u => u.shape ≠ [] && u.innerShape = t.innerShape) = true := by
    rw [List.all_eq_true]
    intro u hu
    obtain ⟨n', hu'⟩ := h u (List.mem_cons_of_mem _ hu)
    simp [hu', innerShape_of_shape ht, innerShape_of_shape hu']
  rw [stack, if_neg (by simp [ht]), if_pos hall, innerShape_of_shape ht]

theorem stack_singleton (h : t.shape = n :: inner) : stack [t] = .ok t := by
  rw [stack_of_shapes (List.cons_ne_nil _ _) (List.forall_mem_singleton.2 ⟨n, h⟩),
    List.flatMap_singleton, ofRowLists_rowLists h]

theorem atLeastMatrix_of_shape (h : t.shape = [n, w]) : t.atLeastMatrix = t := by
  unfold atLeastMatrix
  split
  · rename_i h'; rw [h] at h'; simp at h'
  · rename_i h'; rw [h] at h'; simp at h'
  · rfl

/-! ## Two arrays of one shape -/

theorem zipWith_of_shape (f : α → β → γ) {a : Tensor α} {b : Tensor β} (h : a.shape = b.shape) :
    zipWith f a b = .ok (zipSame f a b h) := by
  simp [zipWith, h]

/-! ## Arrays that need no stretching -/

theorem stretch_self : ∀ (s : Shape) (xs : List α), xs.length = s.size → stretch s s xs = xs
  | [], _, _ => rfl
  | n :: s, xs, h => by
    have hpieces : (pieces (Shape.size s) n xs).map (stretch s s) = pieces (Shape.size s) n xs := by
      rw [← List.map_id (pieces (Shape.size s) n xs), List.map_map]
      refine List.map_congr_left fun piece hpiece => ?_
      exact stretch_self s piece (length_of_mem_pieces _ _ _ h piece hpiece)
    unfold stretch
    rw [if_pos rfl, hpieces, flatten_pieces _ _ _ h]

theorem stretchTo_self (t : Tensor α) : t.stretchTo t.shape = .ok t := by
  have hpad := Shape.padTo_self t.shape
  have hfills : (t.shape.padTo t.shape.length).Fills t.shape := by
    rw [hpad]
    exact Shape.fills_self _
  unfold stretchTo
  dsimp only
  rw [dif_pos hfills]
  congr 1
  apply Tensor.ext
  · rfl
  · show stretch (t.shape.padTo t.shape.length) t.shape t.entries = t.entries
    rw [hpad]
    exact stretch_self _ _ t.length_entries

end Tensor
end ClusterRounds
