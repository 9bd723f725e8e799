/-
  ClusterRounds.Proofs.Packing.Rotations

  Octets are found again from the ends of their sorted rotations. Rotations that start with one
  octet, rotated by it, are the rotations that end with it, in the same order; so where an end lands
  among the sorted ends there is the rotation before its own. From the place of the octets
  themselves the table therefore leads through all rotations one after the other.
-/

import ClusterRounds.Proofs.Packing.Landing
import ClusterRounds.Proofs.Packing.Ranking
import ClusterRounds.Proofs.Packing.Reading

namespace ClusterRounds.Packing.Rotation

/-! ## Sorted lists -/

section Sorted

variable {α : Type} {f : α → UInt8}

/-- A list that is sorted by octets has the smaller ones in front and the greater ones behind. -/
theorem eq_filter_append (xs : List α) (c : UInt8) (h : xs.Pairwise fun a b => f a ≤ f b) :
    xs = xs.filter (fun a => f a < c) ++ (xs.filter (fun a => f a = c)
      ++ xs.filter fun a => c < f a) := by
  induction xs with
  | nil => rfl
  | cons x xs ih =>
    obtain ⟨hfirst, hrest⟩ := List.pairwise_cons.1 h
    by_cases hlt : f x < c
    · have hne : f x ≠ c := fun heq => UInt8.lt_irrefl c (heq ▸ hlt)
      have hnot : ¬ c < f x := UInt8.lt_asymm hlt
      simp only [List.filter_cons, hlt, hne, hnot, decide_true, decide_false, if_true]
      exact congrArg (x :: ·) (ih hrest)
    · have hle : c ≤ f x := UInt8.not_lt.1 hlt
      have hsmaller : xs.filter (fun a => f a < c) = [] :=
        List.filter_eq_nil_iff.2 fun a ha => by simpa using UInt8.le_trans hle (hfirst a ha)
      have hrest := ih hrest
      rw [hsmaller, List.nil_append] at hrest
      by_cases heq : f x = c
      · simp only [List.filter_cons, heq, UInt8.lt_irrefl, decide_true, decide_false, if_true, hsmaller]
        exact congrArg (x :: ·) hrest
      · have hgt : c < f x := UInt8.lt_of_le_of_ne hle (Ne.symm heq)
        have hequal : xs.filter (fun a => f a = c) = [] :=
          List.filter_eq_nil_iff.2 fun a ha => by
            have hmore := UInt8.lt_of_lt_of_le hgt (hfirst a ha)
            simpa using fun heq : f a = c => UInt8.lt_irrefl c (heq ▸ hmore)
        rw [hequal, List.nil_append] at hrest
        simp only [List.filter_cons, hlt, heq, hgt, decide_true, decide_false, if_true, hsmaller,
          hequal]
        exact congrArg (x :: ·) hrest

/-- The entries that have a property keep their order. -/
theorem getElem?_filter {p : α → Bool} : ∀ {xs : List α} {i : Nat} {x : α}, xs[i]? = some x →
    p x = true → (xs.filter p)[(xs.take i).countP p]? = some x
  | y :: xs, 0, x, hx, hp => by
    cases hx
    simp [hp]
  | y :: xs, i + 1, x, hx, hp => by
    have hx : xs[i]? = some x := hx
    have hrest := getElem?_filter hx hp
    by_cases hy : p y = true
    · simp [hy, hrest]
    · simp [hy, hrest]

end Sorted

/-! ## Rotations in order -/

/-- The rotations of octets, in order. -/
structure Rows (w : List UInt8) (rows : List (List UInt8)) : Prop where
  perm : rows.Perm ((List.range w.length).map w.rotate)
  ordered : rows.Pairwise (· ≤ ·)

def headOf (row : List UInt8) : UInt8 := row.headD 0

def lastOf (row : List UInt8) : UInt8 := row.getLast?.getD 0

theorem lastOf_rotate {row : List UInt8} (h : row ≠ []) : lastOf (row.rotate 1) = headOf row := by
  obtain ⟨c, cs, rfl⟩ := List.exists_cons_of_ne_nil h
  rw [List.rotate_cons_succ, List.rotate_zero]
  simp [lastOf, headOf]

theorem headOf_rotate {w : List UInt8} {i : Nat} (hi : i < w.length) :
    headOf (w.rotate i) = w[i] := by
  rw [headOf, List.headD_eq_head?_getD, List.head?_rotate hi, List.getElem?_eq_getElem hi]
  rfl

/-- The end of a rotation stands before its start. -/
theorem lastOf_rotate_eq {w : List UInt8} {i : Nat} (hi : i < w.length) :
    lastOf (w.rotate i) = w.getD ((i + w.length - 1) % w.length) 0 := by
  have hplace : w.length - 1 + i = i + w.length - 1 := by omega
  rw [lastOf, List.getLast?_eq_getElem?, List.length_rotate, List.getElem?_rotate (by omega), hplace,
    List.getD_eq_getElem?_getD]

namespace Rows

variable {w : List UInt8} {rows : List (List UInt8)}

theorem length_rows (h : Rows w rows) : rows.length = w.length := by
  simpa using h.perm.length_eq

theorem length_of_mem (h : Rows w rows) {row : List UInt8} (hrow : row ∈ rows) :
    row.length = w.length := by
  obtain ⟨i, -, rfl⟩ := List.mem_map.1 (h.perm.mem_iff.1 hrow)
  exact List.length_rotate ..

theorem ne_nil_of_mem (h : Rows w rows) {row : List UInt8} (hrow : row ∈ rows) : row ≠ [] := by
  obtain ⟨i, hi, rfl⟩ := List.mem_map.1 (h.perm.mem_iff.1 hrow)
  rw [ne_eq, List.rotate_eq_nil_iff]
  exact List.ne_nil_of_length_pos (Nat.zero_lt_of_lt (List.mem_range.1 hi))

/-- Rotated by one octet they are the same rotations. -/
theorem perm_map_rotate (h : Rows w rows) : (rows.map (·.rotate 1)).Perm rows := by
  have hnext : ((List.range w.length).map fun i => w.rotate (i + 1)).Perm
      ((List.range w.length).map w.rotate) := by
    cases hlength : w.length with
    | zero => exact .refl _
    | succ n =>
      have hround : w.rotate (n + 1) = w.rotate 0 := by
        rw [← hlength, List.rotate_length, List.rotate_zero]
      rw [List.range_succ, List.map_append, List.map_singleton, hround, ← List.range_succ,
        List.range_succ_eq_map, List.map_cons, List.map_map]
      exact List.perm_append_singleton _ _
  have hrotated : ((List.range w.length).map w.rotate).map (·.rotate 1)
      = (List.range w.length).map fun i => w.rotate (i + 1) := by
    rw [List.map_map]
    exact List.map_congr_left fun i _ => List.rotate_rotate ..
  exact ((h.perm.map _).trans (hrotated ▸ hnext)).trans h.perm.symm

/-- The octets that the rotations start with are those that they end with. -/
theorem perm_heads (h : Rows w rows) : (rows.map headOf).Perm (rows.map lastOf) := by
  have hlast : (rows.map (·.rotate 1)).map lastOf = rows.map headOf := by
    rw [List.map_map]
    exact List.map_congr_left fun row hrow => lastOf_rotate (h.ne_nil_of_mem hrow)
  rw [← hlast]
  exact h.perm_map_rotate.map lastOf

theorem ordered_heads (h : Rows w rows) : rows.Pairwise fun a b => headOf a ≤ headOf b := by
  refine h.ordered.imp_of_mem fun {a b} ha hb hle => ?_
  obtain ⟨c, cs, rfl⟩ := List.exists_cons_of_ne_nil (h.ne_nil_of_mem ha)
  obtain ⟨d, ds, rfl⟩ := List.exists_cons_of_ne_nil (h.ne_nil_of_mem hb)
  rcases List.cons_le_cons_iff.1 hle with hlt | ⟨rfl, -⟩
  · exact UInt8.le_of_lt hlt
  · exact UInt8.le_refl _

/-- The rotations that start with an octet, rotated by it, are those that end with it. -/
theorem map_rotate_filter (h : Rows w rows) (c : UInt8) :
    (rows.filter fun row => headOf row = c).map (·.rotate 1)
      = rows.filter fun row => lastOf row = c := by
  -- both sides are in order, so it is enough that they have the same rotations
  have hantisymm (a b : List UInt8) (hle : a ≤ b) (hge : b ≤ a) : a = b := List.le_antisymm hle hge
  refine List.Perm.eq_of_pairwise (fun a b _ _ => hantisymm a b) ?_ (h.ordered.filter _) ?_
  · refine List.pairwise_map.2 ((h.ordered.filter _).imp_of_mem fun {a b} ha hb hle => ?_)
    obtain ⟨ha, hac⟩ := List.mem_filter.1 ha
    obtain ⟨hb, hbc⟩ := List.mem_filter.1 hb
    have hlength := (h.length_of_mem ha).trans (h.length_of_mem hb).symm
    obtain ⟨x, xs, rfl⟩ := List.exists_cons_of_ne_nil (h.ne_nil_of_mem ha)
    obtain ⟨y, ys, rfl⟩ := List.exists_cons_of_ne_nil (h.ne_nil_of_mem hb)
    obtain rfl : x = c := of_decide_eq_true hac
    obtain rfl : y = x := of_decide_eq_true hbc
    rw [List.rotate_cons_succ, List.rotate_cons_succ, List.rotate_zero, List.rotate_zero,
      append_le_append_iff (Nat.succ.inj hlength)]
    -- behind the same first octet it is the others that order them
    rcases List.cons_le_cons_iff.1 hle with hlt | ⟨-, hle⟩
    · exact absurd hlt (UInt8.lt_irrefl y)
    · by_cases hlt : xs < ys
      · exact .inl hlt
      · exact .inr ⟨List.le_antisymm hle (List.not_lt.1 hlt), List.le_refl _⟩
  · have hrows : (rows.filter fun row => headOf row = c).map (·.rotate 1)
        = (rows.map (·.rotate 1)).filter fun row => lastOf row = c := by
      rw [List.filter_map]
      refine congrArg _ (List.filter_congr fun row hrow => ?_)
      show _ = decide (lastOf (row.rotate 1) = c)
      rw [lastOf_rotate (h.ne_nil_of_mem hrow)]
    rw [hrows]
    exact h.perm_map_rotate.filter _

/-- Where the end of a rotation lands there is the rotation before it. -/
theorem rotate_landing (h : Rows w rows) {i : Nat} {row : List UInt8} (hrow : rows[i]? = some row) :
    ∃ before, rows[landing (rows.map lastOf) i]? = some before ∧ before.rotate 1 = row := by
  have hc : (rows.map lastOf).getD i 0 = lastOf row := by
    rw [List.getD_eq_getElem?_getD, List.getElem?_map, hrow]
    rfl
  generalize hlast : lastOf row = c at hc
  have hfound := getElem?_filter (p := fun row => lastOf row = c) hrow (decide_eq_true hlast)
  rw [← h.map_rotate_filter c, List.getElem?_map, Option.map_eq_some_iff] at hfound
  obtain ⟨before, hbefore, hrotated⟩ := hfound
  -- in front of those that start with the octet stand as many as there are smaller ends
  have hsmaller : (rows.map lastOf).countP (· < c) = (rows.filter fun row => headOf row < c).length := by
    rw [← h.perm_heads.countP_eq, List.countP_map, List.countP_eq_length_filter]
    rfl
  have hequal : ((rows.map lastOf).take i).count c
      = (rows.take i).countP fun row => lastOf row = c := by
    rw [← List.map_take, List.count, List.countP_map]
    rfl
  have hplace : (rows.filter (fun row => headOf row < c) ++ (rows.filter (fun row => headOf row = c)
      ++ rows.filter fun row => c < headOf row))[(rows.filter fun row => headOf row < c).length
        + (rows.take i).countP fun row => lastOf row = c]? = some before := by
    rw [List.getElem?_append_right (Nat.le_add_right _ _), Nat.add_sub_cancel_left,
      List.getElem?_append_left (List.getElem?_eq_some_iff.1 hbefore).1]
    exact hbefore
  rw [← eq_filter_append rows c h.ordered_heads] at hplace
  refine ⟨before, ?_, hrotated⟩
  rw [landing, hc, hsmaller, hequal]
  exact hplace

end Rows

/-! ## Going back -/

/-- The place that a table leads to in some steps. -/
def placeAfter (next : Array Nat) (place : Nat) : Nat → Nat
  | 0 => place
  | steps + 1 => next.getD (placeAfter next place steps) 0

theorem placeAfter_succ' (next : Array Nat) (place : Nat) : ∀ steps,
    placeAfter next place (steps + 1) = placeAfter next (next.getD place 0) steps
  | 0 => rfl
  | steps + 1 => congrArg (next.getD · 0) (placeAfter_succ' next place steps)

theorem along_eq (cs : Array UInt8) (next : Array Nat) : ∀ n place (out : ByteArray),
    along cs next n place out = ((List.range n).map fun t =>
      cs.getD (placeAfter next place t) 0).foldl ByteArray.push out
  | 0, place, out => rfl
  | n + 1, place, out => by
    rw [along, along_eq cs next n, List.range_succ_eq_map, List.map_cons, List.foldl_cons,
      List.map_map]
    congr 1
    exact List.map_congr_left fun t _ => by
      show _ = cs.getD (placeAfter next place (t + 1)) 0
      rw [placeAfter_succ']

/-- Step by step the table leads through the rotations of the octets themselves. -/
theorem Rows.getElem?_placeAfter {w : List UInt8} {rows : List (List UInt8)} (h : Rows w rows)
    {place : Nat} (hplace : rows[place]? = some w) : ∀ t,
    rows[placeAfter (followers (rows.map lastOf).toArray) place t]? = some (w.rotate t)
  | 0 => by
    rw [List.rotate_zero]
    exact hplace
  | t + 1 => by
    have hbefore := h.getElem?_placeAfter hplace t
    have hplaced := (List.getElem?_eq_some_iff.1 hbefore).1
    rw [← List.length_map lastOf] at hplaced
    -- some end lands at the place that has been reached, and the table leads back to it
    obtain ⟨i, hi, hlanding⟩ := exists_landing hplaced
    have hback : (followers (rows.map lastOf).toArray).getD (landing (rows.map lastOf) i) 0 = i :=
      getD_followers hi
    rw [List.length_map] at hi
    obtain ⟨before, hlanded, hrotated⟩ := h.rotate_landing (List.getElem?_eq_getElem hi)
    rw [hlanding, hbefore] at hlanded
    obtain rfl := Option.some.inj hlanded
    rw [placeAfter, ← hlanding, hback, List.getElem?_eq_getElem hi, ← hrotated, List.rotate_rotate]

/-- The octets are found again from the ends of their rotations in order and their own place. -/
theorem Rows.restored {w : List UInt8} {rows : List (List UInt8)} (h : Rows w rows) {place : Nat}
    (hplace : rows[place]? = some w) :
    restored (rows.map lastOf).toArray place = ⟨w.toArray⟩ := by
  have hsize : (rows.map lastOf).toArray.size = w.length := by
    rw [List.size_toArray, List.length_map, h.length_rows]
  have hread : ((List.range w.length).map fun t => (rows.map lastOf).toArray.getD
      (placeAfter (followers (rows.map lastOf).toArray)
        ((followers (rows.map lastOf).toArray).getD place 0) t) 0) = w := by
    refine List.ext_getElem (by simp) fun t ht ht' => ?_
    have hrow := h.getElem?_placeAfter hplace (t + 1)
    have hlast : lastOf (w.rotate (t + 1)) = w[t] := by
      have hne : w.rotate t ≠ [] := by
        rw [ne_eq, List.rotate_eq_nil_iff]
        exact List.ne_nil_of_length_pos (Nat.zero_lt_of_lt ht')
      rw [← List.rotate_rotate, lastOf_rotate hne, headOf_rotate ht']
    rw [List.getElem_map, List.getElem_range, ← placeAfter_succ', Array.getD_eq_getD_getElem?,
      List.getElem?_toArray, List.getElem?_map, hrow]
    exact hlast
  rw [Rotation.restored, along_eq, hsize, hread, foldl_push_empty]

/-- The places of the rotations in order. -/
def order (cs : Array UInt8) : List Nat :=
  sorted cs.size (cs.size.log2 + 2) 1 (cs.map UInt8.toNat)

theorem order_spec (cs : Array UInt8) : (order cs).Perm (List.range cs.size) ∧
    (order cs).Pairwise fun i j => cs.toList.rotate i ≤ cs.toList.rotate j := by
  refine sorted_spec _ (Nat.succ_pos _) (Ranks.first cs) ?_
  have hlog : cs.size < 2 ^ (cs.size.log2 + 1) := Nat.lt_log2_self
  rw [Array.length_toList, Nat.mul_one, Nat.pow_succ]
  omega

theorem rows_order (cs : Array UInt8) : Rows cs.toList ((order cs).map cs.toList.rotate) where
  perm := (order_spec cs).1.map _
  ordered := List.pairwise_map.2 (order_spec cs).2

theorem transformed_ends (cs : Array UInt8) :
    (transformed cs).1 = ((order cs).map cs.toList.rotate).map lastOf := by
  rw [List.map_map]
  refine List.map_congr_left fun i hi => ?_
  have hi : i < cs.toList.length := List.mem_range.1 ((order_spec cs).1.mem_iff.1 hi)
  show _ = lastOf (cs.toList.rotate i)
  rw [lastOf_rotate_eq hi]
  simp

/-- The rotation at the place is that of the octets themselves. -/
theorem transformed_place {cs : Array UInt8} (h : 0 < cs.size) :
    ((order cs).map cs.toList.rotate)[(transformed cs).2]? = some cs.toList := by
  have hzero : 0 ∈ order cs := (order_spec cs).1.mem_iff.2 (List.mem_range.2 h)
  obtain ⟨place, hplace⟩ := Option.isSome_iff_exists.1 (List.isSome_idxOf?.2 hzero)
  have htransformed : (transformed cs).2 = place := by
    show ((order cs).idxOf? 0).getD 0 = place
    rw [hplace]
    rfl
  obtain ⟨hlt, heq, -⟩ := List.idxOf?_eq_some_iff.1 hplace
  rw [htransformed, List.getElem?_map, List.getElem?_eq_getElem hlt, heq]
  exact congrArg some (List.rotate_zero _)

theorem place_lt {cs : Array UInt8} (h : 0 < cs.size) : (transformed cs).2 < cs.size := by
  have hlt := (List.getElem?_eq_some_iff.1 (transformed_place h)).1
  rwa [(rows_order cs).length_rows, Array.length_toList] at hlt

/-- The ends are the octets in some order. -/
theorem perm_transformed (cs : Array UInt8) : (transformed cs).1.Perm cs.toList := by
  have hrows := rows_order cs
  have hheads : ((List.range cs.toList.length).map cs.toList.rotate).map headOf = cs.toList := by
    refine List.ext_getElem (by simp) fun i hi hi' => ?_
    rw [List.getElem_map, List.getElem_map, List.getElem_range, headOf_rotate hi']
  have hperm := hrows.perm.map headOf
  rw [hheads] at hperm
  rw [transformed_ends]
  exact hrows.perm_heads.symm.trans hperm

/-- What is transformed is found again. -/
theorem restored_transformed {cs : Array UInt8} (h : 0 < cs.size) :
    restored (transformed cs).1.toArray (transformed cs).2 = ⟨cs⟩ := by
  rw [transformed_ends]
  exact (rows_order cs).restored (transformed_place h)

end ClusterRounds.Packing.Rotation
