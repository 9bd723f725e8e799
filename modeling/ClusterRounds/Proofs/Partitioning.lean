/-
  ClusterRounds.Proofs.Partitioning

  How many partitions there are, and how large. Each way of splitting is a list of sizes, which
  are positive and add up to the number of rows; the rows are cut by these sizes and nothing
  else (`Split.parts_eq`), so that arrays with any number of axes are put together again. What
  is said about a number of parts or about chunks is then said about their sizes.
-/

import ClusterRounds.Proofs.Fitting

namespace ClusterRounds

variable {α : Type}

namespace Split

/-! ## Even parts -/

section Even

variable {total n : Nat}

theorem evenSizes_pos : ∀ s ∈ evenSizes total n, 0 < s := by
  intro s hs
  rcases List.mem_append.1 hs with hs | hs
  · rw [List.eq_of_mem_replicate hs]
    exact Nat.succ_pos _
  · split at hs
    · cases hs
    · rename_i hne
      rw [List.eq_of_mem_replicate hs]
      exact Nat.pos_of_ne_zero hne

theorem length_evenSizes (hn : 0 < n) : (evenSizes total n).length = min n total := by
  have hmod := Nat.mod_lt total hn
  unfold evenSizes
  rw [List.length_append, List.length_replicate]
  split
  · -- there are more parts than rows
    rename_i hzero
    have hlt : total < n := (Nat.div_eq_zero_iff_lt hn).1 hzero
    rw [Nat.mod_eq_of_lt hlt, List.length_nil]
    omega
  · rename_i hne
    have hle : n ≤ total := Nat.le_of_not_lt fun hlt => hne (Nat.div_eq_of_lt hlt)
    rw [List.length_replicate]
    omega

/-- A size is the quotient, or one more. -/
theorem mem_evenSizes {s : Nat} (hs : s ∈ evenSizes total n) : s = total / n + 1 ∨ s = total / n := by
  rcases List.mem_append.1 hs with hs | hs
  · exact .inl (List.eq_of_mem_replicate hs)
  · split at hs
    · cases hs
    · exact .inr (List.eq_of_mem_replicate hs)

theorem pairwise_evenSizes : (evenSizes total n).Pairwise (· ≥ ·) := by
  unfold evenSizes
  rw [List.pairwise_append]
  refine ⟨List.pairwise_replicate.2 (.inr le_rfl), ?_, fun a ha b hb => ?_⟩
  · split
    · exact List.Pairwise.nil
    · exact List.pairwise_replicate.2 (.inr le_rfl)
  · rw [List.eq_of_mem_replicate ha]
    split at hb
    · cases hb
    · rw [List.eq_of_mem_replicate hb]
      exact Nat.le_succ _

end Even

/-! ## Chunks -/

section Chunks

variable {total size : Nat}

/-- All chunks are full but the last one, which has a row at least. -/
theorem exists_chunkSizes (hsize : 0 < size) (htotal : 0 < total) : ∃ last, 0 < last ∧ last ≤ size ∧
    chunkSizes total size = List.replicate ((total + size - 1) / size - 1) size ++ [last] := by
  have hdiv := Nat.div_add_mod total size
  have hmod := Nat.mod_lt total hsize
  unfold chunkSizes
  split
  · -- the last one is full too
    rename_i hzero
    have hquotient : 0 < total / size := by
      refine Nat.pos_of_ne_zero fun heq => ?_
      rw [heq, hzero] at hdiv
      omega
    have hceil : (total + size - 1) / size = total / size := by
      rw [Nat.div_eq_iff hsize]
      rw [hzero, Nat.mul_comm] at hdiv
      omega
    refine ⟨size, hsize, Nat.le_refl _, ?_⟩
    rw [hceil, List.append_nil, ← List.replicate_succ', Nat.sub_add_cancel hquotient]
  · rename_i hne
    -- what is left over is a chunk of its own
    have hceil : (total + size - 1) / size - 1 = total / size := by
      have hceil : (total + size - 1) / size = total / size + 1 := by
        rw [Nat.div_eq_iff hsize, Nat.add_mul]
        rw [Nat.mul_comm] at hdiv
        omega
      rw [hceil, Nat.add_sub_cancel]
    exact ⟨total % size, Nat.pos_of_ne_zero hne, Nat.le_of_lt hmod, by rw [hceil]⟩

theorem chunkSizes_pos (hsize : 0 < size) : ∀ s ∈ chunkSizes total size, 0 < s := by
  intro s hs
  rcases List.mem_append.1 hs with hs | hs
  · rw [List.eq_of_mem_replicate hs]
    exact hsize
  · split at hs
    · cases hs
    · rename_i hne
      rw [List.mem_singleton.1 hs]
      exact Nat.pos_of_ne_zero hne

end Chunks

/-! ## Parts of sizes -/

section Parts

variable {points : Tensor α} {total : Nat} {inner : Shape} {sizes : List Nat}

/-- What is cut has the sizes by which it is cut. -/
theorem map_length_cut {β : Type} : ∀ (sizes : List Nat) (xs : List β), sizes.sum = xs.length →
    (cut sizes xs).map List.length = sizes
  | [], _, _ => rfl
  | n :: sizes, xs, h => by
    rw [List.sum_cons] at h
    have hrest : sizes.sum = (xs.drop n).length := by
      rw [List.length_drop]
      omega
    rw [cut, List.map_cons, map_length_cut sizes (xs.drop n) hrest, List.length_take,
      Nat.min_eq_left (by omega)]

/-- The parts of an array have the sizes that were asked for, and put together they are the array. An
    array without rows is its only part. -/
theorem parts_eq (hpoints : points.shape = total :: inner) (hsum : sizes.sum = total)
    (hpos : ∀ s ∈ sizes, 0 < s) :
    Tensor.stack (parts points sizes) = .ok points ∧ (total = 0 → parts points sizes = [points]) ∧
      (0 < total → (parts points sizes).map Tensor.rowTotal = sizes) := by
  have hlength := Tensor.length_rowLists hpoints
  unfold parts
  rcases Nat.eq_zero_or_pos total with rfl | htotal
  · -- there is nothing to cut
    have hnil : sizes = [] := by
      by_contra hne
      obtain ⟨s, hs⟩ := List.exists_mem_of_ne_nil sizes hne
      exact absurd (List.sum_eq_zero_iff_forall_eq_nat.1 hsum s hs) (Nat.ne_of_gt (hpos s hs))
    subst hnil
    exact ⟨Tensor.stack_singleton hpoints, fun _ => rfl, fun h => absurd h (Nat.lt_irrefl 0)⟩
  · obtain ⟨hwidth, hrows⟩ := cut_rowLists hpoints hsum
    have hne : cut sizes points.rowLists ≠ [] := by
      intro hnil
      rw [hnil, List.flatMap_nil] at hrows
      rw [← hrows] at hlength
      exact absurd hlength (Nat.ne_of_lt htotal)
    rw [Tensor.innerShape_of_shape hpoints]
    split
    · exact absurd ‹_› hne
    refine ⟨?_, fun hzero => absurd hzero (Nat.ne_of_gt htotal), fun _ => ?_⟩
    · have hshapes : ∀ u ∈ (cut sizes points.rowLists).map (Tensor.ofRowLists inner),
          ∃ n, u.shape = n :: inner := by
        intro u hu
        obtain ⟨rows, hrows, rfl⟩ := List.mem_map.1 hu
        exact ⟨_, Tensor.shape_ofRowLists (hwidth rows hrows)⟩
      rw [Tensor.stack_of_shapes (by simpa using hne) hshapes, List.flatMap_map, hrows,
        Tensor.ofRowLists_rowLists hpoints]
    · rw [List.map_map]
      refine Eq.trans (List.map_congr_left fun rows hrows => ?_)
        (map_length_cut sizes points.rowLists (hsum.trans hlength.symm))
      exact Tensor.rowTotal_of_shape (Tensor.shape_ofRowLists (hwidth rows hrows))

end Parts

/-! ## What raw values ask for -/

section Values

variable {points : Tensor α} {total : Nat} {inner : Shape} (hpoints : points.shape = total :: inner)

include hpoints

/-- A number of parts is taken if a list of so many finds room. -/
theorem ofValues_count {n : Int} (hn : 1 ≤ n) (hroom : ¬ TooMany n) :
    ofValues points (.int n) .null = .ok (parts points (evenSizes total n.toNat)) := by
  have hrest : 0 ≤ (total : Int) % n := Int.natCast_nonneg (total % n.natAbs)
  have hone : (Quantity.int n).ltInt 1 = false := by
    rw [Quantity.ltInt_int, decide_eq_false (Int.not_lt.2 hn)]
  have hmost : ¬ mostParts < n - total % n := by
    simp only [TooMany, Shape.greatestLength, partSize, mostParts] at hroom ⊢
    omega
  have hpartitions : partitions points (.int n) none
      = .ok (parts points (evenSizes total n.toNat)) := by
    unfold partitions
    rw [Tensor.rowCount_of_shape hpoints]
    show (if _ then _ else _) = _
    rw [if_neg hmost]
    have hroom : ¬ Shape.greatestLength < partSize * n.toNat := hroom
    show (if Shape.greatestLength < partSize * n.toNat then _ else _) = _
    rw [if_neg hroom]
    rfl
  unfold ofValues
  rw [Tensor.rowCount_of_shape hpoints]
  show (atLeastOne _ (.int n) >>= fun q => partitions points q none) = _
  rw [atLeastOne]
  show ((if (Quantity.int n).ltInt 1 = true then _ else _) >>= _) = _
  rw [hone, if_neg Bool.false_ne_true]
  exact hpartitions

/-- A chunk size is always taken, and then the number of parts does not matter. -/
theorem ofValues_chunk {size : Int} (hsize : 1 ≤ size) (n : Value) :
    ofValues points n (.int size) = .ok (parts points (chunkSizes total size.toNat)) := by
  have hchunk : Execution.chunk? (.int size) = .ok (some size.toNat) := by
    show (if size ≤ 0 then _ else _) = _
    rw [if_neg (by omega)]
    rfl
  unfold ofValues
  rw [Tensor.rowCount_of_shape hpoints, hchunk]
  unfold partitions
  rw [Tensor.rowCount_of_shape hpoints]
  rfl

end Values

/-! ## Partitions -/

/-- The parts hold the rows of the array in their order, none of them is empty as long as there are
    rows, and without rows the array is the only part. -/
structure Keeps (parts : List (Tensor α)) (points : Tensor α) (total : Nat) : Prop where
  stack_eq : Tensor.stack parts = .ok points
  nonempty : 0 < total → ∀ p ∈ parts, 0 < p.rowTotal
  whole : total = 0 → parts = [points]

theorem keeps_parts {points : Tensor α} {total : Nat} {inner : Shape} {sizes : List Nat}
    (hpoints : points.shape = total :: inner) (hsum : sizes.sum = total)
    (hpos : ∀ s ∈ sizes, 0 < s) : Keeps (parts points sizes) points total := by
  obtain ⟨hstack, hwhole, hsizes⟩ := parts_eq hpoints hsum hpos
  refine ⟨hstack, fun htotal p hp => ?_, hwhole⟩
  exact hpos _ (hsizes htotal ▸ List.mem_map.2 ⟨p, hp, rfl⟩)

end Split

/-- Splitting an array keeps its rows in their order. As many parts come as are asked for, but not
    more than there are rows, with sizes that do not grow and differ by one at most; what is asked
    for is only refused if a list of so many finds no room. Chunks are all of the size that is asked
    for but the last one, which has a row at least, and no size is refused. -/
theorem partitions_keep_all_rows {points : Tensor α} {total : Nat} {inner : Shape}
    (hpoints : points.shape = total :: inner) :
    (∀ n : Int, 1 ≤ n → ¬ Split.TooMany n → ∃ parts,
      Split.ofValues points (.int n) .null = .ok parts ∧ Split.Keeps parts points total ∧
      parts.length = max 1 (min n.toNat total) ∧ (parts.map Tensor.rowTotal).Pairwise (· ≥ ·) ∧
      ∀ p ∈ parts, ∀ q ∈ parts, p.rowTotal ≤ q.rowTotal + 1) ∧
    ∀ (size : Int), 1 ≤ size → ∀ n, ∃ parts,
      Split.ofValues points n (.int size) = .ok parts ∧ Split.Keeps parts points total ∧
      parts.length = max 1 ((total + size.toNat - 1) / size.toNat) ∧
      (0 < total → ∃ last, 0 < last ∧ last ≤ size.toNat ∧
        parts.map Tensor.rowTotal = List.replicate (parts.length - 1) size.toNat ++ [last]) := by
  refine ⟨fun n hn hroom => ?_, fun size hsize n => ?_⟩
  · -- even parts
    have hpos : 0 < n.toNat := by omega
    have hparts := Split.keeps_parts hpoints (Split.sum_evenSizes total n.toNat)
      Split.evenSizes_pos
    obtain ⟨-, -, hsizes⟩ := Split.parts_eq hpoints (Split.sum_evenSizes total n.toNat)
      Split.evenSizes_pos
    refine ⟨_, Split.ofValues_count hpoints hn hroom, hparts, ?_⟩
    rcases Nat.eq_zero_or_pos total with rfl | htotal
    · rw [hparts.whole rfl]
      exact ⟨by simp, by simp, by simp⟩
    · have hlength := congrArg List.length (hsizes htotal)
      rw [List.length_map, Split.length_evenSizes hpos] at hlength
      have hmem : ∀ p ∈ Split.parts points (Split.evenSizes total n.toNat),
          p.rowTotal = total / n.toNat + 1 ∨ p.rowTotal = total / n.toNat := fun p hp =>
        Split.mem_evenSizes (hsizes htotal ▸ List.mem_map.2 ⟨p, hp, rfl⟩)
      refine ⟨by omega, by rw [hsizes htotal]; exact Split.pairwise_evenSizes, fun p hp q hq => ?_⟩
      have := hmem p hp
      have := hmem q hq
      omega
  · -- chunks
    have hpos : 0 < size.toNat := by omega
    have hparts := Split.keeps_parts hpoints (Split.sum_chunkSizes total size.toNat)
      (Split.chunkSizes_pos hpos)
    obtain ⟨-, -, hsizes⟩ := Split.parts_eq hpoints (Split.sum_chunkSizes total size.toNat)
      (Split.chunkSizes_pos hpos)
    refine ⟨_, Split.ofValues_chunk hpoints hsize n, hparts, ?_⟩
    rcases Nat.eq_zero_or_pos total with rfl | htotal
    · have hceil : (0 + size.toNat - 1) / size.toNat = 0 := Nat.div_eq_of_lt (by omega)
      rw [hparts.whole rfl, hceil]
      exact ⟨rfl, fun h => absurd h (Nat.lt_irrefl 0)⟩
    · obtain ⟨last, hlast, hle, hchunks⟩ := Split.exists_chunkSizes hpos htotal
      have hceil : 0 < (total + size.toNat - 1) / size.toNat := Nat.div_pos (by omega) hpos
      have hlength := congrArg List.length ((hsizes htotal).trans hchunks)
      rw [List.length_map, List.length_append, List.length_replicate, List.length_singleton,
        Nat.sub_add_cancel hceil] at hlength
      refine ⟨by omega, fun _ => ⟨last, hlast, hle, ?_⟩⟩
      rw [hlength]
      exact (hsizes htotal).trans hchunks

/-! ## Seven rows, and a list that cannot be -/

namespace Split.Sample

def points : Tensor Float := .ofRowLists [1] [[0], [1], [2], [3], [4], [5], [6]]

def point : Tensor Float := .ofRowLists [1] [[1]]

end Split.Sample

/-- Three parts of seven rows have three, two and two of them, and so have three chunks of three
    rows but for the last one. -/
theorem partitions_keep_all_rows_sample :
    (∃ parts, Split.ofValues Split.Sample.points (.int 3) .null = .ok parts ∧
      Split.Keeps parts Split.Sample.points 7 ∧ parts.length = 3 ∧
      (parts.map Tensor.rowTotal).Pairwise (· ≥ ·) ∧
      ∀ p ∈ parts, ∀ q ∈ parts, p.rowTotal ≤ q.rowTotal + 1) ∧
    ∃ parts, Split.ofValues Split.Sample.points (.int 5) (.int 3) = .ok parts ∧
      Split.Keeps parts Split.Sample.points 7 ∧ parts.length = 3 ∧
      ∃ last, 0 < last ∧ last ≤ 3 ∧ parts.map Tensor.rowTotal = [3, 3, last] := by
  have hpoints : Split.Sample.points.shape = [7, 1] := rfl
  have hroom : ¬ Split.TooMany 3 := by
    unfold Split.TooMany
    decide
  obtain ⟨hcount, hchunk⟩ := partitions_keep_all_rows hpoints
  refine ⟨hcount 3 (by decide) hroom, ?_⟩
  obtain ⟨parts, hparts, hkeeps, hlength, hsizes⟩ := hchunk 3 (by decide) (.int 5)
  obtain ⟨last, hlast, hle, hrows⟩ := hsizes (by decide)
  exact ⟨parts, hparts, hkeeps, hlength, last, hlast, hle, by rw [hrows, hlength]; rfl⟩

/-- Of more parts than a list can have there are none, not even the one with the only point. -/
theorem parts_beyond_lists : Split.ofValues Split.Sample.point (.int (2 ^ 63 + 1)) .null
    = .error (.operand .tooLarge) := rfl

end ClusterRounds
