/-
  ClusterRounds.Proofs.Packing.Ranking

  The rotations of octets are put in order. Ranks tell rotations apart by some octets they start
  with (`Ranks`); sorted by the ranks of two places that lie so many octets apart they are in order
  by twice as many, and new ranks tell them apart so far. Once all octets count, the order is that
  of the rotations.
-/

import ClusterRounds.Number.Power
import ClusterRounds.Packing.Rotation
import Mathlib.Data.List.GetD
import Mathlib.Data.List.Rotate

namespace ClusterRounds.Packing.Rotation

/-! ## What a rotation starts with -/

section Cyclic

variable (w : List UInt8)

/-- Some octets from a place on, again from the start behind the end. -/
def cyclic (i count : Nat) : List UInt8 :=
  (List.range count).map fun k => w.getD ((i + k) % w.length) 0

@[simp] theorem length_cyclic (i count : Nat) : (cyclic w i count).length = count := by
  simp [cyclic]

theorem cyclic_add (i a b : Nat) :
    cyclic w i (a + b) = cyclic w i a ++ cyclic w ((i + a) % w.length) b := by
  rw [cyclic, List.range_add, List.map_append, List.map_map, cyclic, cyclic]
  congr 1
  refine List.map_congr_left fun k _ => ?_
  show w.getD ((i + (a + k)) % w.length) 0 = w.getD (((i + a) % w.length + k) % w.length) 0
  rw [Nat.mod_add_mod, Nat.add_assoc]

theorem cyclic_length (i : Nat) : cyclic w i w.length = w.rotate i := by
  refine List.ext_getElem (by simp) fun k hk hk' => ?_
  have hsome : (i + k) % w.length < w.length := Nat.mod_lt _ (by rw [length_cyclic] at hk; omega)
  rw [List.getElem_rotate]
  simp only [cyclic, List.getElem_map, List.getElem_range]
  rw [List.getD_eq_getElem _ _ hsome]
  simp only [Nat.add_comm]

end Cyclic

/-! ## Order -/

theorem append_le_append_iff {xs xs' ys ys' : List UInt8} (h : xs.length = xs'.length) :
    xs ++ ys ≤ xs' ++ ys' ↔ xs < xs' ∨ xs = xs' ∧ ys ≤ ys' := by
  induction xs generalizing xs' with
  | nil =>
    obtain rfl := List.length_eq_zero_iff.1 h.symm
    simp
  | cons x xs ih =>
    cases xs' with
    | nil => cases h
    | cons x' xs' =>
      rw [List.cons_append, List.cons_append, List.cons_le_cons_iff, List.cons_lt_cons_iff,
        ih (Nat.succ.inj h), List.cons.injEq]
      constructor
      · rintro (hlt | ⟨rfl, hlt | ⟨rfl, hle⟩⟩)
        · exact .inl (.inl hlt)
        · exact .inl (.inr ⟨rfl, hlt⟩)
        · exact .inr ⟨⟨rfl, rfl⟩, hle⟩
      · rintro ((hlt | ⟨rfl, hlt⟩) | ⟨⟨rfl, rfl⟩, hle⟩)
        · exact .inl hlt
        · exact .inr ⟨rfl, .inl hlt⟩
        · exact .inr ⟨rfl, .inr ⟨rfl, hle⟩⟩

theorem isOrdered_iff {a b : (Nat × Nat) × Nat} : isOrdered a b = true ↔
    a.1.1 < b.1.1 ∨ a.1.1 = b.1.1 ∧ a.1.2 ≤ b.1.2 := by
  simp [isOrdered]

theorem isOrdered_trans {a b c : (Nat × Nat) × Nat} (hab : isOrdered a b = true)
    (hbc : isOrdered b c = true) : isOrdered a c = true := by
  rw [isOrdered_iff] at *
  omega

theorem isOrdered_total (a b : (Nat × Nat) × Nat) : (isOrdered a b || isOrdered b a) = true := by
  rw [Bool.or_eq_true, isOrdered_iff, isOrdered_iff]
  omega

theorem eq_of_isOrdered {a b : (Nat × Nat) × Nat} (hab : isOrdered a b = true)
    (hba : isOrdered b a = true) : a.1 = b.1 := by
  rw [isOrdered_iff] at *
  exact Prod.ext (by omega) (by omega)

theorem isOrdered_of_eq {a b : (Nat × Nat) × Nat} (h : a.1 = b.1) : isOrdered a b = true := by
  rw [isOrdered_iff, h]
  exact .inr ⟨rfl, Nat.le_refl _⟩

/-! ## Ranks -/

/-- Ranks tell places apart as the octets do that are so many from there on. -/
def Ranks (w : List UInt8) (ranks : Array Nat) (count : Nat) : Prop :=
  ∀ i j, i < w.length → j < w.length →
    (ranks.getD i 0 ≤ ranks.getD j 0 ↔ cyclic w i count ≤ cyclic w j count)

namespace Ranks

variable {w : List UInt8} {ranks : Array Nat} {count i j : Nat}

theorem lt_iff (h : Ranks w ranks count) (hi : i < w.length) (hj : j < w.length) :
    ranks.getD i 0 < ranks.getD j 0 ↔ cyclic w i count < cyclic w j count := by
  rw [← Nat.not_le, h j i hj hi, List.not_le]

theorem eq_iff (h : Ranks w ranks count) (hi : i < w.length) (hj : j < w.length) :
    ranks.getD i 0 = ranks.getD j 0 ↔ cyclic w i count = cyclic w j count := by
  constructor
  · intro heq
    exact List.le_antisymm ((h i j hi hj).1 (Nat.le_of_eq heq))
      ((h j i hj hi).1 (Nat.le_of_eq heq.symm))
  · intro heq
    exact Nat.le_antisymm ((h i j hi hj).2 (heq ▸ List.le_refl _))
      ((h j i hj hi).2 (heq ▸ List.le_refl _))

/-- The first octets are their own ranks. -/
theorem first (cs : Array UInt8) : Ranks cs.toList (cs.map UInt8.toNat) 1 := by
  intro i j hi hj
  have hone {i : Nat} (hi : i < cs.toList.length) : cyclic cs.toList i 1 = [cs.toList[i]] := by
    have hplace : (i + 0) % cs.toList.length = i := Nat.mod_eq_of_lt hi
    rw [cyclic, List.range_one, List.map_singleton, hplace, List.getD_eq_getElem _ _ hi]
  have hrank {i : Nat} (hi : i < cs.toList.length) :
      (cs.map UInt8.toNat).getD i 0 = cs.toList[i].toNat := by
    have hsize : i < cs.size := hi
    simp [hsize]
  rw [hrank hi, hrank hj, hone hi, hone hj, ← UInt8.le_iff_toNat_le, List.cons_le_cons_iff,
    UInt8.le_iff_lt_or_eq]
  simp

end Ranks

/-! ## New ranks -/

/-- The key of a place: its rank and that of the place so many octets on. -/
def keyOf (size known : Nat) (ranks : Array Nat) (i : Nat) : (Nat × Nat) × Nat :=
  ((ranks.getD i 0, ranks.getD ((i + known) % size) 0), i)

/-- Ranks that tell places apart by some octets order them by twice as many. -/
theorem isOrdered_keyOf {w : List UInt8} {ranks : Array Nat} {known : Nat}
    (h : Ranks w ranks known) {i j : Nat} (hi : i < w.length) (hj : j < w.length) :
    isOrdered (keyOf w.length known ranks i) (keyOf w.length known ranks j) = true
      ↔ cyclic w i (2 * known) ≤ cyclic w j (2 * known) := by
  have hmod (i : Nat) : (i + known) % w.length < w.length := Nat.mod_lt _ (by omega)
  rw [isOrdered_iff, Nat.two_mul, cyclic_add, cyclic_add,
    append_le_append_iff (by simp), ← h.lt_iff hi hj, ← h.eq_iff hi hj,
    ← h _ _ (hmod i) (hmod j)]
  rfl

/-- The rank of a key behind the last one: it is a new one if the key is. -/
def nextRank (count : Nat) (last : Option (Nat × Nat)) (k : Nat × Nat) : Nat :=
  if last = some k || last = none then count else count + 1

theorem le_nextRank (count : Nat) (last : Option (Nat × Nat)) (k : Nat × Nat) :
    count ≤ nextRank count last k := by
  unfold nextRank
  split
  · exact Nat.le_refl _
  · exact Nat.le_succ _

theorem nextRank_eq_iff (count : Nat) (k k' : Nat × Nat) :
    nextRank count (some k) k' = count ↔ k' = k := by
  by_cases h : k = k'
  · simp [nextRank, h]
  · simp [nextRank, h, Ne.symm h]

def rankStep (state : Array Nat × Nat × Option (Nat × Nat)) (e : (Nat × Nat) × Nat) :
    Array Nat × Nat × Option (Nat × Nat) :=
  (state.1.setIfInBounds e.2 (nextRank state.2.1 state.2.2 e.1), nextRank state.2.1 state.2.2 e.1,
    some e.1)

theorem ranksOf_eq (size : Nat) (keys : List ((Nat × Nat) × Nat)) :
    ranksOf size keys = (keys.foldl rankStep (Array.replicate size 0, 0, none)).1 := rfl

/-- What has been given ranks: those behind the last rank, and it has the last key. -/
structure Ranked (ranks : Array Nat) (count : Nat) (last : Option (Nat × Nat))
    (keys : List ((Nat × Nat) × Nat)) : Prop where
  from_count : ∀ e ∈ keys, count ≤ ranks.getD e.2 0
  last_key : ∀ e ∈ keys, ∀ k, last = some k → (ranks.getD e.2 0 = count ↔ e.1 = k)
  in_order : ∀ e ∈ keys, ∀ e' ∈ keys,
    (ranks.getD e.2 0 ≤ ranks.getD e'.2 0 ↔ isOrdered e e' = true)

theorem getD_foldl_rankStep (keys : List ((Nat × Nat) × Nat)) {p : Nat} :
    ∀ state, p ∉ keys.map (·.2) → (keys.foldl rankStep state).1.getD p 0 = state.1.getD p 0 := by
  induction keys with
  | nil => exact fun _ _ => rfl
  | cons e keys ih =>
    intro state hp
    rw [List.map_cons, List.mem_cons, not_or] at hp
    rw [List.foldl_cons, ih _ hp.2]
    simp [rankStep, Array.getElem?_setIfInBounds_ne (Ne.symm hp.1)]

/-- Keys in order get ranks in order. -/
theorem ranked_foldl (keys : List ((Nat × Nat) × Nat)) : ∀ ranks count last,
    keys.Pairwise (fun e e' => isOrdered e e' = true) → (keys.map (·.2)).Nodup →
    (∀ e ∈ keys, e.2 < ranks.size) → (∀ k, last = some k → ∀ e ∈ keys, isOrdered (k, 0) e = true) →
    Ranked (keys.foldl rankStep (ranks, count, last)).1 count last keys := by
  -- on the keys: the rank of the first one stays, and all others have that rank or a later one
  induction keys with
  | nil => exact fun _ _ _ _ _ _ _ => ⟨nofun, nofun, nofun⟩
  | cons e keys ih =>
    intro ranks count last hordered hnodup hbounds hlast
    obtain ⟨hfirst, hordered⟩ := List.pairwise_cons.1 hordered
    obtain ⟨hnew, hnodup⟩ := List.nodup_cons.1 hnodup
    obtain ⟨hbound, hbounds⟩ := List.forall_mem_cons.1 hbounds
    rw [List.foldl_cons, rankStep]
    dsimp only
    have hcount := le_nextRank count last e.1
    generalize hnext : nextRank count last e.1 = next at *
    have hrest := ih (ranks.setIfInBounds e.2 next) next (some e.1) hordered hnodup
      (by simpa using hbounds) fun k hk e' he' => by
        cases hk
        exact isOrdered_trans (isOrdered_of_eq rfl) (hfirst e' he')
    have hvalue : (keys.foldl rankStep (ranks.setIfInBounds e.2 next, next, some e.1)).1.getD e.2 0
        = next := by
      rw [getD_foldl_rankStep keys _ hnew]
      simp [hbound]
    generalize (keys.foldl rankStep (ranks.setIfInBounds e.2 next, next, some e.1)).1 = after
      at hrest hvalue ⊢
    have hsame (k : Nat × Nat) (hk : last = some k) : next = count ↔ e.1 = k := by
      rw [← hnext, hk, nextRank_eq_iff]
    -- only a key that equals this one has its rank
    have hequal (e' : (Nat × Nat) × Nat) (he' : e' ∈ keys) :
        after.getD e'.2 0 ≤ next ↔ isOrdered e' e = true := by
      have hfrom := hrest.from_count e' he'
      have hkey := hrest.last_key e' he' e.1 rfl
      constructor
      · intro hle
        exact isOrdered_of_eq (hkey.1 (Nat.le_antisymm hle hfrom))
      · intro hle
        exact Nat.le_of_eq (hkey.2 (eq_of_isOrdered hle (hfirst e' he')))
    constructor
    case from_count =>
      refine List.forall_mem_cons.2 ⟨hvalue ▸ hcount, fun e' he' => ?_⟩
      exact Nat.le_trans hcount (hrest.from_count e' he')
    case last_key =>
      refine List.forall_mem_cons.2 ⟨fun k hk => hvalue ▸ hsame k hk, fun e' he' k hk => ?_⟩
      have hfrom := hrest.from_count e' he'
      have hkey := hrest.last_key e' he' e.1 rfl
      constructor
      · intro heq
        have hstay : next = count := by omega
        rw [hkey.1 (by omega), (hsame k hk).1 hstay]
      · intro heq
        have hbefore := hlast k hk e List.mem_cons_self
        -- the first key lies between two equal ones, so it is equal to them
        have hbehind := isOrdered_trans (hfirst e' he') (isOrdered_of_eq (b := (k, 0)) heq)
        have hfound := eq_of_isOrdered hbehind hbefore
        rw [hkey.2 (heq.trans hfound.symm), (hsame k hk).2 hfound]
    case in_order =>
      refine List.forall_mem_cons.2 ⟨?_, fun e' he' => ?_⟩
      · refine List.forall_mem_cons.2 ⟨?_, fun e' he' => ?_⟩
        · exact iff_of_true (Nat.le_refl _) (isOrdered_of_eq rfl)
        · rw [hvalue]
          exact iff_of_true (hrest.from_count e' he') (hfirst e' he')
      · refine List.forall_mem_cons.2 ⟨?_, hrest.in_order e' he'⟩
        rw [hvalue]
        exact hequal e' he'

/-! ## The order of the rotations -/

section Sorted

variable {w : List UInt8} {ranks : Array Nat} {known : Nat}

theorem perm_ordered (size known : Nat) (ranks : Array Nat) :
    (ordered size known ranks).Perm ((List.range size).map (keyOf size known ranks)) :=
  List.mergeSort_perm _ _

theorem pairwise_ordered (size known : Nat) (ranks : Array Nat) :
    (ordered size known ranks).Pairwise fun e e' => isOrdered e e' = true := by
  apply List.pairwise_mergeSort
  · exact fun _ _ _ => isOrdered_trans
  · exact isOrdered_total

theorem exists_of_mem_ordered {size : Nat} {e : (Nat × Nat) × Nat}
    (h : e ∈ ordered size known ranks) : e.2 < size ∧ e = keyOf size known ranks e.2 := by
  obtain ⟨i, hi, rfl⟩ := List.mem_map.1 ((perm_ordered size known ranks).mem_iff.1 h)
  exact ⟨List.mem_range.1 hi, rfl⟩

theorem perm_places (size known : Nat) (ranks : Array Nat) :
    ((ordered size known ranks).map (·.2)).Perm (List.range size) := by
  have hplaces : ((List.range size).map (keyOf size known ranks)).map (·.2) = List.range size := by
    rw [List.map_map]
    exact List.map_id _
  rw [← hplaces]
  exact (perm_ordered size known ranks).map _

/-- The new ranks tell places apart by twice as many octets. -/
theorem ranks_ranksOf (h : Ranks w ranks known) :
    Ranks w (ranksOf w.length (ordered w.length known ranks)) (2 * known) := by
  have hnodup : ((ordered w.length known ranks).map (·.2)).Nodup :=
    (perm_places _ _ _).nodup_iff.2 List.nodup_range
  have hranked := ranked_foldl (ordered w.length known ranks) (Array.replicate w.length 0) 0 none
    (pairwise_ordered _ _ _) hnodup
    (fun e he => by simpa using (exists_of_mem_ordered he).1) (fun _ h => nomatch h)
  have hmem {i : Nat} (hi : i < w.length) :
      keyOf w.length known ranks i ∈ ordered w.length known ranks :=
    (perm_ordered _ _ _).mem_iff.2 (List.mem_map_of_mem (List.mem_range.2 hi))
  intro i j hi hj
  rw [← isOrdered_keyOf h hi hj, ← hranked.in_order _ (hmem hi) _ (hmem hj), ranksOf_eq]
  rfl

/-- Once the octets go round, it is the rotations that are in order. -/
theorem rotate_le_of_cyclic_le {i j count : Nat} (h : w.length ≤ count)
    (hle : cyclic w i count ≤ cyclic w j count) : w.rotate i ≤ w.rotate j := by
  obtain ⟨more, rfl⟩ := Nat.exists_eq_add_of_le h
  rw [cyclic_add, cyclic_add, append_le_append_iff (by simp), cyclic_length, cyclic_length] at hle
  rcases hle with hlt | ⟨heq, -⟩
  · exact List.le_of_lt hlt
  · exact heq ▸ List.le_refl _

/-- The places are those of the rotations, in order. -/
theorem sorted_spec : ∀ (fuel : Nat) {known : Nat} {ranks : Array Nat}, 0 < fuel →
    Ranks w ranks known → w.length ≤ 2 ^ fuel * known →
    (sorted w.length fuel known ranks).Perm (List.range w.length) ∧
      (sorted w.length fuel known ranks).Pairwise fun i j => w.rotate i ≤ w.rotate j := by
  have hlast {known : Nat} {ranks : Array Nat} (h : Ranks w ranks known)
      (hall : w.length ≤ 2 * known) :
      ((ordered w.length known ranks).map (·.2)).Perm (List.range w.length) ∧
        ((ordered w.length known ranks).map (·.2)).Pairwise
          fun i j => w.rotate i ≤ w.rotate j := by
    refine ⟨perm_places _ _ _, List.pairwise_map.2 ?_⟩
    refine (pairwise_ordered _ _ _).imp_of_mem fun he he' hle => ?_
    obtain ⟨hi, hkey⟩ := exists_of_mem_ordered he
    obtain ⟨hj, hkey'⟩ := exists_of_mem_ordered he'
    rw [hkey, hkey', isOrdered_keyOf h hi hj] at hle
    exact rotate_le_of_cyclic_le hall hle
  -- on the fuel: every step doubles the number of octets that count, until they go round
  intro fuel
  induction fuel with
  | zero => exact fun h => absurd h (Nat.lt_irrefl _)
  | succ fuel ih =>
    intro known ranks _ h hroom
    cases fuel with
    | zero => exact hlast h (by simpa using hroom)
    | succ fuel =>
      rw [sorted]
      split
      case isTrue hall => exact hlast h hall
      case isFalse =>
        refine ih (Nat.succ_pos _) (ranks_ranksOf h) ?_
        rw [← Nat.mul_assoc, ← Nat.pow_succ]
        exact hroom

end Sorted

end ClusterRounds.Packing.Rotation
