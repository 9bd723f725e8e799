/-
  ClusterRounds.Proofs.Lloyd.Merge

  Bringing the partials together. `Holds` says which points a partial holds of every
  cluster, whatever the order of its clusters is: their total and their number. Merging
  two partials puts the points of each cluster together, and so does the merge of all
  partitions in pairs, level by level.
-/

import ClusterRounds.Proofs.Lloyd.Sums

namespace ClusterRounds
namespace Lloyd

variable {width : Nat} {p q : Partial Rat} {f g : Nat → List (List Rat)} {j : Nat}

/-- The entry of a cluster with some points. -/
def entry (width j : Nat) (points : List (List Rat)) : Int × Accumulator Rat :=
  ((j : Int), ⟨j, .vector (total width points), points.length⟩)

/-- The partial holds the points `f j` of each cluster `j`, and no cluster without points. -/
structure Holds (width : Nat) (p : Partial Rat) (f : Nat → List (List Rat)) : Prop where
  nodup : (p.map (·.1)).Nodup
  entries : ∀ e ∈ p, ∃ j, f j ≠ [] ∧ e = entry width j (f j)
  complete : ∀ j, f j ≠ [] → entry width j (f j) ∈ p

theorem Holds.mem_keys (h : Holds width p f) : (j : Int) ∈ p.map (·.1) ↔ f j ≠ [] := by
  constructor
  · intro hmem
    obtain ⟨e, he, hkey⟩ := List.mem_map.1 hmem
    obtain ⟨i, hi, rfl⟩ := h.entries e he
    rw [← Int.ofNat.inj hkey]
    exact hi
  · intro hj
    exact List.mem_map.2 ⟨_, h.complete j hj, rfl⟩

/-- What the local reduction makes holds the members of each label. -/
theorem holds_partialOf {k : Nat} {xs : List (Nat × List Rat)} (hxs : ∀ e ∈ xs, e.1 < k) :
    Holds width (partialOf k width xs) fun j => members j xs where
  nodup := by
    unfold partialOf
    rw [List.map_map]
    exact List.Pairwise.map _ (fun _ _ hne heq => hne (Int.ofNat.inj heq))
      (List.nodup_range.filter _)
  entries e he := by
    obtain ⟨j, hj, rfl⟩ := List.mem_map.1 he
    exact ⟨j, by simpa using (List.mem_filter.1 hj).2, rfl⟩
  complete j hj := by
    obtain ⟨x, hx⟩ := List.exists_mem_of_ne_nil _ hj
    have hlt := hxs _ (mem_of_mem_members hx)
    exact List.mem_map.2 ⟨j, List.mem_filter.2 ⟨List.mem_range.2 hlt, by simpa using hj⟩, rfl⟩

/-! ## Adding one cluster -/

theorem merge_entry (j : Nat) (ps qs : List (List Rat)) :
    (entry width j ps).2.merge (entry width j qs).2 = .ok (entry width j (ps ++ qs)).2 := by
  have hshape : (Tensor.vector (total width ps)).shape = (Tensor.vector (total width qs)).shape := by
    simp [Tensor.vector]
  have hsum : Tensor.zipWith (· + ·) (Tensor.vector (total width ps))
      (Tensor.vector (total width qs)) = .ok (Tensor.vector (total width (ps ++ qs))) := by
    rw [Tensor.zipWith_of_shape _ hshape, total_append]
    congr 1
    apply Tensor.ext
    · simp [Tensor.zipSame, Tensor.vector]
    · rfl
  unfold Accumulator.merge
  rw [if_neg (by simp [entry])]
  refine bind_eq_ok.2 ⟨_, ofOperands_eq_ok.2 hsum, ?_⟩
  simp [entry, pure, Except.pure]

/-- Points of one cluster are added to those that are held. -/
theorem Holds.add (h : Holds width p f) {qs : List (List Rat)} (hqs : qs ≠ []) :
    ∃ p', p.add (entry width j qs).1 (entry width j qs).2 = .ok p' ∧
      Holds width p' fun i => if i = j then f j ++ qs else f i := by
  by_cases hj : f j = []
  · -- the cluster is new
    have hnew : (j : Int) ∉ p.map (·.1) := fun hmem => h.mem_keys.1 hmem hj
    refine ⟨_, Partial.add_of_not_mem hnew, ?_, ?_, ?_⟩
    · rw [List.map_append, List.nodup_append]
      refine ⟨h.nodup, by simp, ?_⟩
      intro a ha b hb hab
      have hb : b = (j : Int) := by simpa [entry] using hb
      exact hnew (hb ▸ hab ▸ ha)
    · intro e he
      rcases List.mem_append.1 he with he | he
      · obtain ⟨i, hi, rfl⟩ := h.entries e he
        have hij : i ≠ j := fun hij => hi (hij ▸ hj)
        exact ⟨i, by simpa [hij] using hi, by simp [hij]⟩
      · have he : e = entry width j qs := by simpa using he
        exact ⟨j, by simpa [hj] using hqs, by simp [hj, he]⟩
    · intro i hi
      by_cases hij : i = j
      · subst hij
        simp [hj, entry]
      · have hi : f i ≠ [] := by simpa [hij] using hi
        rw [if_neg hij]
        exact List.mem_append_left _ (h.complete i hi)
  · -- the cluster is there, once
    obtain ⟨before, rest, hp⟩ := List.append_of_mem (h.complete j hj)
    have hnodup := h.nodup
    rw [hp, List.map_append, List.map_cons, List.nodup_append] at hnodup
    have hbefore : (j : Int) ∉ before.map (·.1) := by
      intro hmem
      exact hnodup.2.2 _ hmem _ (by simp [entry]) rfl
    have hrest : (j : Int) ∉ rest.map (·.1) := (List.nodup_cons.1 hnodup.2.1).1
    refine ⟨before ++ entry width j (f j ++ qs) :: rest, ?_, ?_, ?_, ?_⟩
    · rw [hp]
      exact Partial.add_of_mem (merge_entry j (f j) qs) hbefore
    · have := h.nodup
      rw [hp] at this
      simpa [entry] using this
    · intro e he
      rcases List.mem_append.1 he with he' | he'
      · obtain ⟨i, hi, rfl⟩ := h.entries e (by rw [hp]; exact List.mem_append_left _ he')
        have hij : i ≠ j := fun hij => hbefore (List.mem_map.2 ⟨_, he', by rw [hij]; rfl⟩)
        exact ⟨i, by simpa [hij] using hi, by simp [hij]⟩
      · rcases List.mem_cons.1 he' with rfl | he'
        · exact ⟨j, by simp [hj], by simp⟩
        · obtain ⟨i, hi, rfl⟩ := h.entries e
            (by rw [hp]; exact List.mem_append_right _ (List.mem_cons_of_mem _ he'))
          have hij : i ≠ j := fun hij => hrest (List.mem_map.2 ⟨_, he', by rw [hij]; rfl⟩)
          exact ⟨i, by simpa [hij] using hi, by simp [hij]⟩
    · intro i hi
      by_cases hij : i = j
      · subst hij
        simp
      · have hi : f i ≠ [] := by simpa [hij] using hi
        have hmem := h.complete i hi
        rw [hp, List.mem_append, List.mem_cons] at hmem
        rw [if_neg hij, List.mem_append, List.mem_cons]
        rcases hmem with hmem | heq | hmem
        · exact .inl hmem
        · exact absurd (Int.ofNat.inj (congrArg Prod.fst heq)) hij
        · exact .inr (.inr hmem)

/-! ## Merging -/

theorem Holds.congr (h : Holds width p f) (hfg : ∀ j, f j = g j) : Holds width p g := by
  rw [← funext hfg]
  exact h

/-- What a merge has come to when the clusters `done` of the right side are in. -/
def merging (f g : Nat → List (List Rat)) (done : Partial Rat) (j : Nat) : List (List Rat) :=
  if (j : Int) ∈ done.map (·.1) then f j ++ g j else f j

theorem holds_foldlM_add (hq : Holds width q g) :
    ∀ (rest done p' : Partial Rat), q = done ++ rest → Holds width p' (merging f g done) →
      ∃ r, rest.foldlM (fun merged e => Partial.add merged e.1 e.2) p' = .ok r ∧
        Holds width r (merging f g q)
  | [], done, p', hall, h => by
    rw [List.append_nil] at hall
    exact ⟨p', rfl, hall ▸ h⟩
  | e :: rest, done, p', hall, h => by
    obtain ⟨j, hj, rfl⟩ := hq.entries e (by rw [hall]; simp)
    -- no cluster comes twice on the right side
    have hnew : (j : Int) ∉ done.map (·.1) := by
      have hnodup := hq.nodup
      rw [hall, List.map_append, List.nodup_append] at hnodup
      intro hmem
      exact hnodup.2.2 _ hmem _ (by simp [entry]) rfl
    obtain ⟨p'', hadd, h'⟩ := h.add hj
    have hstep : Holds width p'' (merging f g (done ++ [entry width j (g j)])) := by
      refine h'.congr fun i => ?_
      have hkey : (entry width j (g j)).1 = (j : Int) := rfl
      have hiff : (i : Int) ∈ (done ++ [entry width j (g j)]).map (·.1)
          ↔ (i : Int) ∈ done.map (·.1) ∨ i = j := by
        rw [List.map_append, List.mem_append, List.map_singleton, hkey, List.mem_singleton,
          Int.natCast_inj]
      unfold merging
      by_cases hij : i = j
      · subst hij
        rw [if_pos rfl, if_neg hnew, if_pos (hiff.2 (.inr rfl))]
      · rw [if_neg hij]
        exact if_congr (by rw [hiff, or_iff_left hij]) rfl rfl
    obtain ⟨r, hr, hholds⟩ := holds_foldlM_add hq rest _ p'' (by rw [hall]; simp) hstep
    exact ⟨r, by rw [List.foldlM_cons, hadd]; exact hr, hholds⟩

/-- The merge of two partials holds the points of both. -/
theorem Holds.merge (hp : Holds width p f) (hq : Holds width q g) :
    ∃ r, p.merge q = .ok r ∧ Holds width r fun j => f j ++ g j := by
  have hstart : Holds width p (merging f g []) := hp.congr fun j => by simp [merging]
  obtain ⟨r, hr, hholds⟩ := holds_foldlM_add hq q [] p rfl hstart
  refine ⟨r, hr, hholds.congr fun j => ?_⟩
  unfold merging
  by_cases hj : g j = []
  · rw [hj, List.append_nil, ite_self]
  · rw [if_pos (hq.mem_keys.2 hj)]

/-- The merge of all partials holds the points of all. -/
theorem holds_reduce {ps : List (Partial Rat)} {fs : List (Nat → List (List Rat))}
    (h : List.Forall₂ (Holds width) ps fs) :
    ∃ r, Aggregate.reduce ps = .ok r ∧ Holds width r fun j => fs.flatMap fun f => f j := by
  -- what is merged are lists of such functions, at first each on its own
  have hall : List.Forall₂ (fun p gs => Holds width p fun j => gs.flatMap fun g => g j) ps
      (fs.map ([·])) := by
    rw [List.forall₂_map_right_iff]
    exact h.imp fun p f hp => hp.congr fun j => by simp
  have hnil : Holds width [] fun j => ([] : List (Nat → List (List Rat))).flatMap fun g => g j :=
    ⟨List.nodup_nil, fun _ he => (nomatch he), fun _ hj => absurd rfl hj⟩
  have hmerge : ∀ {p q : Partial Rat} {gs gs' : List (Nat → List (List Rat))},
      (Holds width p fun j => gs.flatMap fun g => g j) →
      (Holds width q fun j => gs'.flatMap fun g => g j) →
      ∃ r, p.merge q = .ok r ∧ Holds width r fun j => (gs ++ gs').flatMap fun g => g j := by
    intro p q gs gs' hp hq
    obtain ⟨r, hr, hholds⟩ := hp.merge hq
    exact ⟨r, hr, hholds.congr fun j => by rw [List.flatMap_append]⟩
  obtain ⟨r, hr, hholds⟩ := Aggregate.exists_reduce hmerge hnil hall
  rw [← List.flatMap_def, List.flatMap_singleton'] at hholds
  exact ⟨r, hr, hholds⟩

end Lloyd
end ClusterRounds
