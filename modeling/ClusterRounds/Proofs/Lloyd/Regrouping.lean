/-
  ClusterRounds.Proofs.Lloyd.Regrouping

  Aggregation in exact arithmetic does not depend on how the points come to it. Pairs of a
  label and a point are given out to batches in any way, each batch is reduced by itself, and
  the partials are merged in any order and grouping (`Made`): what comes out holds the points
  of each cluster, which is all that makes a difference to their total and their number. So
  it is, as a map, the local reduction of all pairs at once. The maps that are merged stay what
  they were: a merge fills a copy at a place of its own.
-/

import Mathlib.Algebra.Order.Ring.Rat
import ClusterRounds.Proofs.Lloyd.Reorder

namespace ClusterRounds

/-! ## Maps at places -/

/-- The maps there are, each at its place. A map that is made comes last. -/
abbrev Shelf (α : Type) := List (Partial α)

namespace Shelf

variable {α : Type} [Add α]

/-- Puts an accumulator into the map at a place: merged into that of its cluster, or as a new one. -/
def put (shelf : Shelf α) (place : Nat) (e : Int × Accumulator α) : Outcome (Shelf α) := do
  let changed ← (shelf.getD place []).add e.1 e.2
  return shelf.set place changed

/-- Merges the maps at two places: a copy of the left one is made, and the accumulators of the
    right one are put into it. The answer is the place of the copy. -/
def merge (shelf : Shelf α) (left right : Nat) : Outcome (Nat × Shelf α) := do
  let place := shelf.length
  let copied := shelf ++ [shelf.getD left []]
  return (place, ← (shelf.getD right []).foldlM (fun shelf e => put shelf place e) copied)

/-- Merges neighbours; the last of an odd number stays where it is. -/
def mergePairs : List Nat → Shelf α → Outcome (List Nat × Shelf α)
  | left :: right :: rest, shelf => do
    let (place, shelf) ← merge shelf left right
    let (places, shelf) ← mergePairs rest shelf
    return (place :: places, shelf)
  | short, shelf => .ok (short, shelf)

theorem length_mergePairs {next : List Nat} {shelf' : Shelf α} :
    ∀ (places : List Nat) (shelf : Shelf α), mergePairs places shelf = .ok (next, shelf') →
      next.length = (places.length + 1) / 2
  | [], _, h => by cases h; rfl
  | [_], _, h => by cases h; simp
  | left :: right :: rest, shelf, h => by
    unfold mergePairs at h
    obtain ⟨_, -, h⟩ := bind_eq_ok.1 h
    obtain ⟨⟨places, _⟩, hrest, h⟩ := bind_eq_ok.1 h
    cases pure_eq_ok.1 h
    have := length_mergePairs rest _ hrest
    simp only [List.length_cons, this]
    omega

/-- Merges the maps at all places, level by level; of none an empty map is made. -/
def reduce (places : List Nat) (shelf : Shelf α) : Outcome (Nat × Shelf α) :=
  match places with
  | [] => .ok (shelf.length, shelf ++ [[]])
  | [place] => .ok (place, shelf)
  | left :: right :: rest =>
    match _h : mergePairs (left :: right :: rest) shelf with
    | .error e => .error e
    | .ok (next, shelf) => reduce next shelf
termination_by places.length
decreasing_by
  have := length_mergePairs _ _ _h
  simp only [List.length_cons] at this ⊢
  omega

/-- Of two places and more, first one level is made. -/
theorem reduce_cons_cons (left right : Nat) (rest : List Nat) (shelf : Shelf α) :
    reduce (left :: right :: rest) shelf
      = mergePairs (left :: right :: rest) shelf >>= fun (next, shelf) => reduce next shelf := by
  rw [reduce]
  split
  · rename_i e herror
    rw [herror]
    rfl
  · rename_i next shelf hlevel
    rw [hlevel]
    rfl

/-! ## A shelf only grows -/

variable {shelf : Shelf α} {p q : Partial α}

theorem put_last (e : Int × Accumulator α) :
    put (shelf ++ [p]) shelf.length e = (p.add e.1 e.2).map fun p' => shelf ++ [p'] := by
  unfold put
  rw [List.getD_append_right _ _ _ _ (Nat.le_refl _), Nat.sub_self, List.getD_cons_zero]
  cases p.add e.1 e.2 with
  | error f => rfl
  | ok p' =>
    show Except.ok ((shelf ++ [p]).set shelf.length p') = Except.ok (shelf ++ [p'])
    rw [List.set_append_right _ _ (Nat.le_refl _), Nat.sub_self, List.set_cons_zero]

/-- A merge makes one map, which is the merge of the two, and leaves all others as they are. -/
theorem merge_eq (left right : Nat) : merge shelf left right
    = ((shelf.getD left []).merge (shelf.getD right [])).map
        fun r => (shelf.length, shelf ++ [r]) := by
  -- the copy takes up the entries one by one, whatever it holds already
  have hfold : ∀ (q p : Partial α),
      q.foldlM (fun shelf' e => put shelf' shelf.length e) (shelf ++ [p])
        = (p.merge q).map fun r => shelf ++ [r] := by
    intro q
    induction q with
    | nil => exact fun _ => rfl
    | cons e q ih =>
      intro p
      unfold Partial.merge
      rw [List.foldlM_cons, List.foldlM_cons, put_last]
      cases hadd : p.add e.1 e.2 with
      | error f => rfl
      | ok p' => exact ih p'
  unfold merge
  dsimp only
  rw [hfold]
  cases (shelf.getD left []).merge (shelf.getD right []) with
  | error f => rfl
  | ok r => rfl

/-- The maps at the places. -/
def mapsAt (shelf : Shelf α) (places : List Nat) : List (Partial α) :=
  places.map fun i => shelf.getD i []

omit [Add α] in
theorem mapsAt_append {places : List Nat} (h : ∀ i ∈ places, i < shelf.length) (new : Shelf α) :
    mapsAt (shelf ++ new) places = mapsAt shelf places :=
  List.map_congr_left fun i hi => List.getD_append _ _ _ _ (h i hi)

/-- One level makes the maps that a level of partials comes to, behind all others. -/
theorem mergePairs_grows : ∀ (places : List Nat) (shelf : Shelf α) {qs : List (Partial α)},
    (∀ i ∈ places, i < shelf.length) → Aggregate.mergePairs (shelf.mapsAt places) = .ok qs →
    ∃ next new, mergePairs places shelf = .ok (next, shelf ++ new) ∧
      (∀ i ∈ next, i < (shelf ++ new).length) ∧ mapsAt (shelf ++ new) next = qs
  | [], shelf, qs, _, hqs => by
    cases hqs
    exact ⟨[], [], by rw [List.append_nil]; rfl, fun _ hi => (nomatch hi), rfl⟩
  | [place], shelf, qs, h, hqs => by
    cases hqs
    exact ⟨[place], [], by rw [List.append_nil]; rfl, by rwa [List.append_nil],
      by rw [List.append_nil]; rfl⟩
  | left :: right :: rest, shelf, qs, h, hqs => by
    obtain ⟨r, hr, hqs⟩ := bind_eq_ok.1 hqs
    obtain ⟨qs', hrest, hqs⟩ := bind_eq_ok.1 hqs
    cases pure_eq_ok.1 hqs
    have hplaces : ∀ i ∈ rest, i < shelf.length := fun i hi => h i (by simp [hi])
    -- the merge of the first two comes behind all maps, and the others go on from there
    obtain ⟨next, new, hnext, hlt, hat⟩ := mergePairs_grows rest (shelf ++ [r])
      (fun i hi => Nat.lt_of_lt_of_le (hplaces i hi) (by simp)) (by rwa [mapsAt_append hplaces])
    rw [List.append_assoc, List.singleton_append] at hnext hlt hat
    refine ⟨shelf.length :: next, r :: new, ?_, List.forall_mem_cons.2 ⟨by simp, hlt⟩, ?_⟩
    · unfold mergePairs
      rw [merge_eq, hr, Except.map]
      exact bind_eq_ok.2 ⟨_, rfl, bind_eq_ok.2 ⟨_, hnext, rfl⟩⟩
    · show List.getD _ _ _ :: mapsAt _ next = _
      rw [hat, List.getD_append_right _ _ _ _ (Nat.le_refl _), Nat.sub_self, List.getD_cons_zero]

/-- All levels make the map that the partials reduce to, and leave the maps there were. -/
theorem reduce_grows (places : List Nat) (shelf : Shelf α) {r : Partial α}
    (h : ∀ i ∈ places, i < shelf.length) (hr : Aggregate.reduce (shelf.mapsAt places) = .ok r) :
    ∃ place new, reduce places shelf = .ok (place, shelf ++ new) ∧
      (shelf ++ new).getD place [] = r := by
  induction places, shelf using reduce.induct generalizing r with
  | case1 shelf =>
    unfold mapsAt Aggregate.reduce at hr
    cases hr
    exact ⟨shelf.length, [[]], by unfold reduce; rfl, by simp⟩
  | case2 shelf place =>
    unfold mapsAt Aggregate.reduce at hr
    cases hr
    exact ⟨place, [], by unfold reduce; rw [List.append_nil], by rw [List.append_nil]⟩
  | case3 shelf left right rest e herror =>
    rw [mapsAt, List.map_cons, List.map_cons, Aggregate.reduce_cons_cons] at hr
    obtain ⟨qs, hqs, -⟩ := bind_eq_ok.1 hr
    -- a level that the partials come to does not fail
    obtain ⟨_, _, hok, -⟩ := mergePairs_grows (left :: right :: rest) shelf h hqs
    rw [herror] at hok
    cases hok
  | case4 shelf left right rest next shelf' hlevel ih =>
    rw [mapsAt, List.map_cons, List.map_cons, Aggregate.reduce_cons_cons] at hr
    obtain ⟨qs, hqs, hr⟩ := bind_eq_ok.1 hr
    obtain ⟨_, made, hok, hlt, hat⟩ := mergePairs_grows (left :: right :: rest) shelf h hqs
    rw [hlevel] at hok
    cases hok
    obtain ⟨place, new, hreduce, hplace⟩ := ih hlt (by rw [hat]; exact hr)
    refine ⟨place, made ++ new, ?_, by rwa [← List.append_assoc]⟩
    rw [reduce_cons_cons, hlevel, ← List.append_assoc]
    exact hreduce

end Shelf

/-! ## Labelled points -/

namespace Assignment

variable {α : Type}

/-- Every label with the coordinates of its point. -/
def entries (a : Assignment α) : List (Int × List α) := a.labels.zip a.points.rowLists

/-- The labels are numbers of clusters, and the points are as many and of one width. The points
    of an assignment without labels may be anything. -/
structure Fits (a : Assignment α) (k : Int) (width : Nat) : Prop where
  low : ∀ l ∈ a.labels, 0 ≤ l
  high : ∀ l ∈ a.labels, l < k
  points : a.labels = [] ∨ a.points.shape = [a.labels.length, width]

variable {a : Assignment α} {k : Int} {width : Nat}

/-- No label goes without a point. -/
theorem Fits.map_fst_entries (h : a.Fits k width) : a.entries.map (·.1) = a.labels := by
  refine List.map_fst_zip ?_
  rcases h.points with hnil | hshape
  · simp [hnil]
  · rw [Tensor.length_rowLists hshape]

theorem Fits.entries_low (h : a.Fits k width) : ∀ e ∈ a.entries, 0 ≤ e.1 := fun _ he =>
  h.low _ (List.of_mem_zip he).1

end Assignment

namespace Lloyd

variable {k : Int} {width : Nat} {a : Assignment Rat} {xs ys : List (Int × List Rat)}
  {p q : Partial Rat} {f g : Nat → List (List Rat)}

/-- The labels as natural numbers. -/
def numbered (xs : List (Int × List Rat)) : List (Nat × List Rat) := xs.map fun e => (e.1.toNat, e.2)

/-- Labels that are not negative stay what they are. -/
theorem cast_numbered (hlow : ∀ e ∈ xs, 0 ≤ e.1) :
    (numbered xs).map (fun e => (e.1 : Int)) = xs.map (·.1) := by
  rw [numbered, List.map_map]
  exact List.map_congr_left fun e he => Int.toNat_of_nonneg (hlow e he)

theorem length_members_numbered (hlow : ∀ e ∈ xs, 0 ≤ e.1) (j : Nat) :
    (members j (numbered xs)).length = (xs.map (·.1)).count (j : Int) := by
  have hcast : xs.map (·.1) = ((numbered xs).map (·.1)).map fun (l : Nat) => (l : Int) := by
    rw [List.map_map, ← cast_numbered hlow]
    rfl
  rw [length_members, hcast]
  exact (List.count_map_of_injective _ _ Int.ofNat_injective j).symm

theorem lt_of_mem_numbered (h : a.Fits k width) : ∀ e ∈ numbered a.entries, e.1 < k.toNat := by
  intro e he
  obtain ⟨⟨l, x⟩, hmem, rfl⟩ := List.mem_map.1 he
  have hl := (List.of_mem_zip hmem).1
  have := h.low l hl
  have := h.high l hl
  dsimp only
  omega

/-- The local reduction of points with labels in range. -/
theorem accumulate_of_fits (h : a.Fits k width) :
    Aggregate.accumulate a k = .ok (partialOf k.toNat width (numbered a.entries)) := by
  by_cases hnil : a.labels = []
  · simp [Aggregate.accumulate, Assignment.entries, hnil, numbered, partialOf, pure, Except.pure]
  · have hshape := h.points.resolve_left hnil
    -- there is a label, so the number of clusters is not negative
    obtain ⟨l, hl⟩ := List.exists_mem_of_ne_nil _ hnil
    have hk : ((k.toNat : Nat) : Int) = k :=
      Int.toNat_of_nonneg (Int.le_trans (h.low l hl) (Int.le_of_lt (h.high l hl)))
    have hlabels : (numbered a.entries).map (fun e => (e.1 : Int)) = a.labels := by
      rw [cast_numbered h.entries_low, h.map_fst_entries]
    have hpoints : (numbered a.entries).map (·.2) = a.points.rowLists := by
      rw [numbered, List.map_map]
      exact List.map_snd_zip (by rw [Tensor.length_rowLists hshape])
    have hmade := accumulate_eq hshape hpoints (lt_of_mem_numbered h) a.epoch
    rwa [hlabels, hk] at hmade

/-! ## Maps that hold the same points -/

/-- A partial is settled by the points of each cluster, up to the order of either. -/
theorem Holds.perm (hp : Holds width p f) (hq : Holds width q g) (h : ∀ j, (f j).Perm (g j)) :
    p.Perm q := by
  have hentry : ∀ j, entry width j (f j) = entry width j (g j) := fun j => by
    rw [entry, entry, total_perm (h j), (h j).length_eq]
  rw [List.perm_ext_iff_of_nodup hp.nodup.of_map hq.nodup.of_map]
  intro e
  constructor
  · intro he
    obtain ⟨j, hj, rfl⟩ := hp.entries e he
    rw [hentry]
    exact hq.complete j fun hnil => hj (hnil ▸ h j).eq_nil
  · intro he
    obtain ⟨j, hj, rfl⟩ := hq.entries e he
    rw [← hentry]
    exact hp.complete j fun hnil => hj (hnil ▸ h j).symm.eq_nil

end Lloyd

/-! ## Any grouping -/

/-- What comes of labelled points that are given out to batches: the local reductions of the
    batches, merged in any grouping. -/
inductive Made (k : Int) (width : Nat) : List (Int × List Rat) → Partial Rat → Prop
  | none : Made k width [] []
  | batch {a p} : a.Fits k width → Aggregate.accumulate a k = .ok p → Made k width a.entries p
  | merged {xs ys p q r} : Made k width xs p → Made k width ys q → p.merge q = .ok r →
      Made k width (xs ++ ys) r

/-- The partial has an accumulator for each of the labels, under its own number, with as many
    points as the label comes up, and no other accumulators. -/
structure Partial.Counts {α : Type} (p : Partial α) (labels : List Int) : Prop where
  nodup : (p.map (·.1)).Nodup
  cluster_eq : ∀ e ∈ p, e.2.cluster = e.1
  mem_keys : ∀ c, c ∈ p.map (·.1) ↔ c ∈ labels
  count_pos : ∀ e ∈ p, 1 ≤ e.2.count
  count_eq : ∀ e ∈ p, e.2.count = labels.count e.1

/-- The order of the labels does not matter. -/
theorem Partial.Counts.of_perm {α : Type} {p : Partial α} {labels labels' : List Int}
    (h : p.Counts labels) (hperm : labels.Perm labels') : p.Counts labels' where
  nodup := h.nodup
  cluster_eq := h.cluster_eq
  mem_keys c := (h.mem_keys c).trans hperm.mem_iff
  count_pos := h.count_pos
  count_eq e he := by rw [h.count_eq e he, hperm.count_eq]

namespace Made

open Lloyd

variable {k : Int} {width : Nat} {xs ys : List (Int × List Rat)} {p q : Partial Rat}

theorem low (h : Made k width xs p) : ∀ e ∈ xs, 0 ≤ e.1 := by
  induction h with
  | none => exact fun _ he => nomatch he
  | batch hfits _ => exact hfits.entries_low
  | merged _ _ _ ihp ihq => exact fun e he => (List.mem_append.1 he).elim (ihp e) (ihq e)

/-- Whatever the grouping is, the partial holds the points of each label. -/
theorem holds (h : Made k width xs p) : Holds width p fun j => members j (numbered xs) := by
  induction h with
  | none => exact ⟨List.nodup_nil, fun _ he => (nomatch he), fun _ hj => absurd rfl hj⟩
  | batch hfits hp =>
    rw [accumulate_of_fits hfits] at hp
    cases hp
    exact holds_partialOf (lt_of_mem_numbered hfits)
  | merged _ _ hr ihp ihq =>
    obtain ⟨r', hr', hholds⟩ := ihp.merge ihq
    rw [hr] at hr'
    cases hr'
    refine hholds.congr fun j => ?_
    rw [← members_append, numbered, numbered, numbered, List.map_append]

/-- So it counts the labels. -/
theorem counts (h : Made k width xs p) : p.Counts (xs.map (·.1)) := by
  have hcount := length_members_numbered h.low
  refine ⟨h.holds.nodup, fun e he => ?_, fun c => ?_, fun e he => ?_, fun e he => ?_⟩
  · obtain ⟨j, -, rfl⟩ := h.holds.entries e he
    rfl
  · constructor
    · intro hc
      obtain ⟨e, he, rfl⟩ := List.mem_map.1 hc
      obtain ⟨j, hj, rfl⟩ := h.holds.entries e he
      exact List.count_pos_iff.1 (hcount j ▸ List.length_pos_iff.2 hj)
    · intro hc
      obtain ⟨e, he, rfl⟩ := List.mem_map.1 hc
      obtain ⟨j, hj⟩ := Int.eq_ofNat_of_zero_le (h.low e he)
      rw [hj] at hc ⊢
      exact h.holds.mem_keys.2 (List.length_pos_iff.1 (hcount j ▸ List.count_pos_iff.2 hc))
  · obtain ⟨j, hj, rfl⟩ := h.holds.entries e he
    exact Int.ofNat_le.2 (List.length_pos_iff.2 hj)
  · obtain ⟨j, hj, rfl⟩ := h.holds.entries e he
    exact congrArg Int.ofNat (hcount j)

/-- No merge of two such partials fails. -/
theorem exists_merge (hp : Made k width xs p) (hq : Made k width ys q) :
    ∃ r, p.merge q = .ok r ∧ Made k width (xs ++ ys) r := by
  obtain ⟨r, hr, -⟩ := hp.holds.merge hq.holds
  exact ⟨r, hr, .merged hp hq hr⟩

/-- Neither the order of the points nor their grouping makes a difference. -/
theorem perm (hp : Made k width xs p) (hq : Made k width ys q) (h : xs.Perm ys) : p.Perm q :=
  hp.holds.perm hq.holds fun j => members_perm (h.map _) j

/-- The local reductions of all batches merge, whatever their number is. -/
theorem exists_reduce {ps : List (Partial Rat)} {xss : List (List (Int × List Rat))}
    (h : List.Forall₂ (fun p xs => Made k width xs p) ps xss) :
    ∃ r, Aggregate.reduce ps = .ok r ∧ Made k width xss.flatten r :=
  Aggregate.exists_reduce (fun hp hq => hp.exists_merge hq) .none h

end Made

/-- Aggregation ignores how the points come to it. In exact arithmetic, labelled points that are
    given out to batches in any way and order, empty batches included, are reduced and merged
    without a failure, and come to the map that the local reduction makes of all of them at once.
    So does every other grouping of them. Every partial on the way counts the labels that it was
    made of. And where the maps stand at places, a merge changes none of them, nor does the merge
    of all: they only make new ones, and answer with the place of the merge. -/
theorem aggregation_ignores_grouping {k : Int} {width : Nat} {batches : List (Assignment Rat)}
    {whole : Assignment Rat} (hbatches : ∀ b ∈ batches, b.Fits k width)
    (hwhole : whole.Fits k width) (hpairs : (batches.flatMap (·.entries)).Perm whole.entries) :
    ∃ partials merged total,
      batches.mapM (fun b => Aggregate.accumulate b k) = .ok partials ∧
      Aggregate.reduce partials = .ok merged ∧ Aggregate.accumulate whole k = .ok total ∧
      merged.Perm total ∧
      List.Forall₂ (fun (p : Partial Rat) (b : Assignment Rat) => p.Counts b.labels)
        partials batches ∧
      merged.Counts whole.labels ∧ total.Counts whole.labels ∧
      (∀ {xs p}, Made k width xs p →
        p.Counts (xs.map (·.1)) ∧ (xs.Perm whole.entries → p.Perm total) ∧
        ∀ {ys q}, Made k width ys q → ∃ r, p.merge q = .ok r ∧ Made k width (xs ++ ys) r) ∧
      (∀ (shelf : Shelf Rat) (left right : Nat), shelf.merge left right
        = ((shelf.getD left []).merge (shelf.getD right [])).map
            fun r => (shelf.length, shelf ++ [r])) ∧
      ∀ {places : List Nat} {shelf : Shelf Rat}, (∀ i ∈ places, i < shelf.length) →
        shelf.mapsAt places = partials → ∃ place new,
          Shelf.reduce places shelf = .ok (place, shelf ++ new) ∧
            (shelf ++ new).getD place [] = merged := by
  let local_ (b : Assignment Rat) := Lloyd.partialOf k.toNat width (Lloyd.numbered b.entries)
  have hlocal : ∀ {b : Assignment Rat}, b.Fits k width → Made k width b.entries (local_ b) :=
    fun hb => .batch hb (Lloyd.accumulate_of_fits hb)
  have hcounts : ∀ {b : Assignment Rat}, b.Fits k width → (local_ b).Counts b.labels := fun hb =>
    hb.map_fst_entries ▸ (hlocal hb).counts
  have hall : List.Forall₂ (fun p xs => Made k width xs p) (batches.map local_)
      (batches.map (·.entries)) := by
    rw [List.forall₂_map_left_iff, List.forall₂_map_right_iff, List.forall₂_same]
    exact fun b hb => hlocal (hbatches b hb)
  obtain ⟨merged, hreduce, hmerged⟩ := Made.exists_reduce hall
  rw [← List.flatMap_def] at hmerged
  have hlabels := hpairs.map (·.1)
  rw [hwhole.map_fst_entries] at hlabels
  refine ⟨batches.map local_, merged, local_ whole,
    mapM_eq_ok_map fun b hb => Lloyd.accumulate_of_fits (hbatches b hb), hreduce,
    Lloyd.accumulate_of_fits hwhole, hmerged.perm (hlocal hwhole) hpairs, ?_,
    hmerged.counts.of_perm hlabels, hcounts hwhole, fun hp => ⟨hp.counts, hp.perm (hlocal hwhole),
      fun hq => hp.exists_merge hq⟩, fun shelf => shelf.merge_eq, fun hplaces hat => ?_⟩
  · rw [List.forall₂_map_left_iff, List.forall₂_same]
    exact fun b hb => hcounts (hbatches b hb)
  · exact Shelf.reduce_grows _ _ hplaces (hat ▸ hreduce)

/-- Three batches, one of them empty, bring the pairs from back to front: the clusters stand in
    another order in the merge, and the maps of the batches stay at their places. -/
theorem aggregation_ignores_grouping_sample :
    let batches : List (Assignment Rat) :=
      [⟨0, [1], Sample.column [5]⟩, ⟨0, [], Sample.column []⟩, ⟨0, [1, 0], Sample.column [3, 2]⟩]
    let whole : Assignment Rat := ⟨0, [0, 1, 1], Sample.column [2, 3, 5]⟩
    ∃ partials merged total,
      batches.mapM (fun b => Aggregate.accumulate b 2) = .ok partials ∧
      Aggregate.reduce partials = .ok merged ∧ Aggregate.accumulate whole 2 = .ok total ∧
      merged.Perm total ∧ merged.Counts [0, 1, 1] ∧ ∃ place new,
        Shelf.reduce [0, 1, 2] partials = .ok (place, partials ++ new) ∧
          (partials ++ new).getD place [] = merged := by
  intro batches whole
  have hbatches : ∀ b ∈ batches, b.Fits 2 1 := by
    refine List.forall_mem_cons.2 ⟨⟨by decide, by decide, .inr rfl⟩, List.forall_mem_cons.2
      ⟨⟨by decide, by decide, .inl rfl⟩, List.forall_mem_singleton.2
        ⟨by decide, by decide, .inr rfl⟩⟩⟩
  have hwhole : whole.Fits 2 1 := ⟨by decide, by decide, .inr rfl⟩
  have hpairs : (batches.flatMap (·.entries)).Perm whole.entries := by decide
  obtain ⟨partials, merged, total, hpartials, hmerged, htotal, hperm, hall, hcounts, -, -, -, hshelf⟩ :=
    aggregation_ignores_grouping hbatches hwhole hpairs
  refine ⟨partials, merged, total, hpartials, hmerged, htotal, hperm, hcounts, ?_⟩
  -- the maps of the batches stand at the first three places
  obtain ⟨a, b, c, rfl⟩ := List.length_eq_three.1 (hall.length_eq : partials.length = 3)
  exact hshelf (by simp) rfl

end ClusterRounds
