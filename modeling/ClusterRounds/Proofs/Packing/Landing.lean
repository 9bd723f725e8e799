/-
  ClusterRounds.Proofs.Packing.Landing

  Where octets land when they are sorted and equal ones keep their order: behind all smaller ones
  and behind the equal ones before them (`landing`). Every place is landed at by exactly one octet,
  and the tables that go back through a transformed block lead from each place to that octet.
-/

import ClusterRounds.Packing.Rotation
import Mathlib.Data.Fintype.EquivFin
import Mathlib.Algebra.Ring.Nat
import Mathlib.Data.List.GetD
import Mathlib.Data.List.Count

namespace ClusterRounds.Packing.Rotation

variable {cs : List UInt8} {i j : Nat}

/-! ## Places -/

/-- The place at which an octet lands. -/
def landing (cs : List UInt8) (i : Nat) : Nat :=
  cs.countP (· < cs.getD i 0) + (cs.take i).count (cs.getD i 0)

theorem count_take_lt (hi : i < cs.length) :
    (cs.take i).count (cs.getD i 0) < cs.count (cs.getD i 0) := by
  rw [List.getD_eq_getElem _ _ hi]
  exact List.count_getElem_take_lt_count

/-- Equal octets keep their order. -/
theorem count_take_lt_count_take (hij : i < j) (hj : j < cs.length)
    (heq : cs.getD i 0 = cs.getD j 0) :
    (cs.take i).count (cs.getD i 0) < (cs.take j).count (cs.getD j 0) := by
  have hi : i < (cs.take j).length := by
    rw [List.length_take]
    omega
  have hsame : (cs.take j).getD i 0 = cs.getD i 0 := by
    rw [List.getD_eq_getElem _ _ hi, List.getElem_take, List.getD_eq_getElem]
  have hlt := count_take_lt hi
  rw [hsame, List.take_take, Nat.min_eq_left (Nat.le_of_lt hij)] at hlt
  exact heq ▸ hlt

/-- Smaller and equal octets are different ones, so together they are no more than all octets of a
    kind that both are of. -/
theorem countP_lt_add_count (cs : List UInt8) {c : UInt8} {p : UInt8 → Bool}
    (hsmaller : ∀ x < c, p x = true) (hequal : p c = true) :
    cs.countP (· < c) + cs.count c ≤ cs.countP p := by
  induction cs with
  | nil => exact Nat.le_refl _
  | cons x cs ih =>
    rw [List.countP_cons, List.count_cons, List.countP_cons]
    by_cases hlt : x < c
    · have hne : x ≠ c := fun heq => UInt8.lt_irrefl c (heq ▸ hlt)
      simp [hlt, hne, hsmaller x hlt]
      omega
    · by_cases heq : x = c
      · simp [heq, hequal, UInt8.lt_irrefl]
        omega
      · simp [hlt, heq]
        omega

theorem landing_lt (hi : i < cs.length) : landing cs i < cs.length := by
  have hrank := count_take_lt hi
  have hall : cs.countP (· < cs.getD i 0) + cs.count (cs.getD i 0) ≤ cs.length :=
    Nat.le_trans (countP_lt_add_count cs (p := fun _ => true) (fun _ _ => rfl) rfl)
      List.countP_le_length
  unfold landing
  omega

/-- A smaller octet lands before a greater one. -/
theorem landing_lt_landing (hi : i < cs.length) (h : cs.getD i 0 < cs.getD j 0) :
    landing cs i < landing cs j := by
  have hrank := count_take_lt hi
  have hbelow : cs.countP (· < cs.getD i 0) + cs.count (cs.getD i 0)
      ≤ cs.countP (· < cs.getD j 0) :=
    countP_lt_add_count cs (fun _ hx => decide_eq_true (UInt8.lt_trans hx h)) (decide_eq_true h)
  unfold landing
  omega

theorem landing_inj (hi : i < cs.length) (hj : j < cs.length) (h : landing cs i = landing cs j) :
    i = j := by
  -- unequal octets land apart, and of equal ones the later one lands behind the other
  have hsame : cs.getD i 0 = cs.getD j 0 := by
    by_contra hne
    rcases Nat.lt_or_gt_of_ne (hne ∘ UInt8.toNat_inj.1) with hlt | hlt
    · have := landing_lt_landing hi (UInt8.lt_iff_toNat_lt.2 hlt)
      omega
    · have := landing_lt_landing hj (UInt8.lt_iff_toNat_lt.2 hlt)
      omega
  have hcount : (cs.take i).count (cs.getD i 0) = (cs.take j).count (cs.getD j 0) := by
    rw [landing, landing, hsame] at h
    rw [hsame]
    omega
  rcases Nat.lt_trichotomy i j with hlt | heq | hlt
  · have := count_take_lt_count_take hlt hj hsame
    omega
  · exact heq
  · have := count_take_lt_count_take hlt hi hsame.symm
    omega

/-- At every place some octet lands. -/
theorem exists_landing {k : Nat} (hk : k < cs.length) : ∃ i < cs.length, landing cs i = k := by
  -- there are as many octets as places, and no two of them land at one
  have hinjective : Function.Injective
      fun i : Fin cs.length => (⟨landing cs i, landing_lt i.2⟩ : Fin cs.length) :=
    fun i j h => Fin.ext (landing_inj i.2 j.2 (congrArg Fin.val h))
  obtain ⟨i, hi⟩ := (Finite.injective_iff_surjective.1 hinjective) ⟨k, hk⟩
  exact ⟨i, i.2, congrArg Fin.val hi⟩

/-! ## The tables -/

/-- How often each octet occurs, added to what has been counted before. -/
theorem getElem?_foldl_modify (cs : List UInt8) {v : Nat} : ∀ {counts : Array Nat} {n : Nat},
    counts[v]? = some n →
    (cs.foldl (fun (counts : Array Nat) c => counts.modify c.toNat (· + 1)) counts)[v]?
      = some (n + cs.countP fun c => c.toNat = v) := by
  induction cs with
  | nil => exact fun h => h
  | cons c cs ih =>
    intro counts n h
    rw [List.foldl_cons, List.countP_cons]
    by_cases hc : c.toNat = v
    · rw [ih (n := n + 1) (by rw [Array.getElem?_modify, if_pos hc, h]; rfl)]
      simp [hc]
      omega
    · rw [ih (n := n) (by rw [Array.getElem?_modify, if_neg hc, h])]
      simp [hc]

theorem size_foldl_modify (cs : List UInt8) : ∀ counts : Array Nat,
    (cs.foldl (fun (counts : Array Nat) c => counts.modify c.toNat (· + 1)) counts).size
      = counts.size := by
  induction cs with
  | nil => exact fun _ => rfl
  | cons c cs ih =>
    intro counts
    rw [List.foldl_cons, ih, Array.size_modify]

/-- The sums of the numbers before each one. -/
theorem toList_foldl_push (ns : List Nat) : ∀ (sums : Array Nat) (total : Nat),
    ((ns.foldl (fun (state : Array Nat × Nat) n => (state.1.push state.2, state.2 + n))
      (sums, total)).1).toList
      = sums.toList ++ (List.range ns.length).map fun v => total + (ns.take v).sum := by
  induction ns with
  | nil => simp
  | cons n ns ih =>
    intro sums total
    rw [List.foldl_cons, ih, List.length_cons, List.range_succ_eq_map, List.map_cons, List.map_map,
      Array.toList_push, List.append_assoc]
    congr 1
    show total :: _ = total :: _
    congr 1
    refine List.map_congr_left fun v _ => ?_
    show total + n + (ns.take v).sum = total + ((n :: ns).take (v + 1)).sum
    rw [List.take_succ_cons, List.sum_cons, Nat.add_assoc]

/-- The numbers of all smaller octets add up. -/
theorem sum_take_counts {counts : List Nat} (cs : List UInt8)
    (h : ∀ v < counts.length, counts[v]? = some (cs.countP fun c => c.toNat = v)) :
    ∀ {v}, v ≤ counts.length → (counts.take v).sum = cs.countP fun c => c.toNat < v
  | 0, _ => by simp
  | v + 1, hv => by
    have hsplit : (cs.countP fun c => c.toNat < v + 1)
        = (cs.countP fun c => c.toNat < v) + cs.countP fun c => c.toNat = v := by
      clear h
      induction cs with
      | nil => rfl
      | cons c cs ih =>
        simp only [List.countP_cons, ih, decide_eq_true_eq]
        split <;> split <;> split <;> omega
    rw [List.take_add_one, h v hv, List.sum_append, sum_take_counts cs h (Nat.le_of_succ_le hv), hsplit]
    simp

theorem getElem?_smaller (cs : Array UInt8) (c : UInt8) :
    (smaller cs)[c.toNat]? = some (cs.toList.countP (· < c)) := by
  unfold smaller
  dsimp only
  rw [← Array.foldl_toList, ← Array.foldl_toList]
  generalize hcounts : cs.toList.foldl (fun (counts : Array Nat) c => counts.modify c.toNat (· + 1))
    (Array.replicate 256 0) = counts
  have hget : ∀ v < 256, counts[v]? = some (cs.toList.countP fun c => c.toNat = v) := by
    intro v hv
    rw [← hcounts, getElem?_foldl_modify _ (n := 0) (by simp [hv]), Nat.zero_add]
  have hsize : counts.toList.length = 256 := by
    rw [← hcounts, Array.length_toList, size_foldl_modify, Array.size_replicate]
  have hc : c.toNat < 256 := c.toNat_lt
  have hcounts : ∀ v < counts.toList.length,
      counts.toList[v]? = some (cs.toList.countP fun c => c.toNat = v) := by
    intro v hv
    rw [Array.getElem?_toList]
    exact hget v (hsize ▸ hv)
  have hsum := sum_take_counts cs.toList hcounts (v := c.toNat) (hsize ▸ Nat.le_of_lt hc)
  have hsmaller : (cs.toList.countP fun d => d.toNat < c.toNat) = cs.toList.countP (· < c) :=
    List.countP_congr fun d _ => by simp [UInt8.lt_iff_toNat_lt]
  rw [← Array.getElem?_toList, toList_foldl_push, hsize]
  simp [hc, hsum, hsmaller]

/-- The first part of the octets has been taken in: the places behind those that octets of it land
    at are free, and where they land leads back to them. -/
structure Followed (cs : List UInt8) (count : Nat) (next free : Array Nat) : Prop where
  size : next.size = cs.length
  free : ∀ c : UInt8, free[c.toNat]? = some (cs.countP (· < c) + (cs.take count).count c)
  back : ∀ i < count, next.getD (landing cs i) 0 = i

/-- One step back: an octet comes from the first place that is free for it. -/
def followStep (state : Array Nat × Array Nat × Nat) (c : UInt8) : Array Nat × Array Nat × Nat :=
  (state.1.setIfInBounds (state.2.1.getD c.toNat 0) state.2.2, state.2.1.modify c.toNat (· + 1),
    state.2.2 + 1)

theorem Followed.step {cs before after : List UInt8} {c : UInt8} {next free : Array Nat}
    (hcs : before ++ c :: after = cs) (h : Followed cs before.length next free) :
    Followed cs (before.length + 1) (next.setIfInBounds (free.getD c.toNat 0) before.length)
      (free.modify c.toNat (· + 1)) := by
  have hlt : before.length < cs.length := by
    rw [← hcs, List.length_append, List.length_cons]
    omega
  have hc : cs.getD before.length 0 = c := by
    rw [← hcs]
    simp
  have htake : cs.take before.length = before := by rw [← hcs, List.take_left]
  have htake' : cs.take (before.length + 1) = before ++ [c] := by
    rw [← hcs]
    simp [List.take_append]
  -- the place that is free for the octet is the one at which it lands
  have hplace : free.getD c.toNat 0 = landing cs before.length := by
    rw [Array.getD_eq_getD_getElem?, h.free c, landing, hc]
    rfl
  have hbound : landing cs before.length < next.size := h.size ▸ landing_lt hlt
  constructor
  case size => rw [Array.size_setIfInBounds, h.size]
  case free =>
    intro d
    have hfree := h.free d
    rw [htake] at hfree
    rw [htake', List.count_append, Array.getElem?_modify, hfree]
    by_cases hcd : c = d
    · rw [if_pos (congrArg _ hcd), hcd]
      simp [Nat.add_assoc]
    · rw [if_neg (hcd ∘ UInt8.toNat_inj.1)]
      simp [hcd]
  case back =>
    intro i hi
    rw [hplace, Array.getD_eq_getD_getElem?, Array.getElem?_setIfInBounds]
    by_cases hlast : i = before.length
    · rw [hlast, if_pos rfl, if_pos hbound]
      rfl
    · -- no other octet lands there, so what leads back to the others stays
      have hother : landing cs before.length ≠ landing cs i := fun heq =>
        hlast (landing_inj hlt (by omega) heq).symm
      rw [if_neg hother, ← Array.getD_eq_getD_getElem?]
      exact h.back i (by omega)

theorem followed_foldl (cs : List UInt8) : ∀ (after before : List UInt8) {next free : Array Nat},
    before ++ after = cs → Followed cs before.length next free →
    ∃ free', Followed cs cs.length (after.foldl followStep (next, free, before.length)).1 free'
  | [], before, next, free, hcs, h => by
    rw [List.append_nil] at hcs
    exact ⟨free, hcs ▸ h⟩
  | c :: after, before, next, free, hcs, h => by
    have hstep := h.step hcs
    have hlength : (before ++ [c]).length = before.length + 1 := by simp
    rw [← hlength] at hstep
    have hrest := followed_foldl cs after (before ++ [c]) (by rw [← hcs]; simp) hstep
    rwa [hlength] at hrest

/-- Where an octet lands the table leads back to it. -/
theorem getD_followers {cs : Array UInt8} {i : Nat} (hi : i < cs.size) :
    (followers cs).getD (landing cs.toList i) 0 = i := by
  have hstart : Followed cs.toList 0 (Array.replicate cs.size 0) (smaller cs) := by
    constructor
    case size => simp
    case free =>
      intro c
      rw [getElem?_smaller]
      rfl
    case back => exact fun _ h => absurd h (Nat.not_lt_zero _)
  obtain ⟨free, hfollowed⟩ := followed_foldl cs.toList cs.toList [] rfl hstart
  have hfollowers : followers cs
      = (cs.toList.foldl followStep (Array.replicate cs.size 0, smaller cs, 0)).1 := by
    rw [Array.foldl_toList]
    rfl
  rw [hfollowers]
  exact hfollowed.back i hi

end ClusterRounds.Packing.Rotation
