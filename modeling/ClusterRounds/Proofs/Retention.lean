/-
  ClusterRounds.Proofs.Retention

  The history of each centroid. A cluster that gets no point in a round keeps its centroid,
  so after any number of rounds the row of a cluster is the mean that was made in the latest
  round with points of it, or the row that the run began with (`RowFrom`). It takes that the
  clusters of the merged sums, their places among the centroids and the clusters that the
  collector remembers as empty are told apart by the labels of the round alone. Clusters may
  lose their points and get some again in any order.
-/

import ClusterRounds.Proofs.FixedPoint
import ClusterRounds.Proofs.Tallies

namespace ClusterRounds

variable {α : Type}

/-! ## The places of the means -/

namespace Collector

variable {k : Int} {width : Nat} {p done : Progress α} {means : List (Int × Tensor α)}

/-- Means of different clusters come to stand in their places, and all other places are as they
    were. -/
theorem foldlM_place_spec (hnodup : (means.map (·.1)).Nodup)
    (hmeans : ∀ e ∈ means, e.2.shape = [width]) (h : means.foldlM (place k [width]) p = .ok done) :
    done.filled.length = p.filled.length ∧ ∀ j : Nat,
      ((j : Int) ∉ means.map (·.1) → done.rows[j]? = p.rows[j]? ∧ done.filled[j]? = p.filled[j]?) ∧
      ∀ mean, ((j : Int), mean) ∈ means → j < p.rows.length → j < p.filled.length →
        done.rows[j]? = some mean.entries ∧ done.filled[j]? = some true := by
  induction means generalizing p with
  | nil =>
    cases pure_eq_ok.1 h
    exact ⟨rfl, fun j => ⟨fun _ => ⟨rfl, rfl⟩, fun _ hmem => nomatch hmem⟩⟩
  | cons entry means ih =>
    obtain ⟨hnew, hnodup⟩ := List.nodup_cons.1 hnodup
    rw [List.foldlM_cons] at h
    obtain ⟨mid, hmid, h⟩ := bind_eq_ok.1 h
    obtain ⟨⟨hlow, -⟩, -, row, hrow, rfl⟩ := place_eq_ok.1 hmid
    rw [rowEntries_of_shape (hmeans entry List.mem_cons_self), Except.ok.injEq] at hrow
    subst hrow
    obtain ⟨hlength, hplaces⟩ := ih hnodup (fun e he => hmeans e (List.mem_cons_of_mem _ he)) h
    rw [List.length_set] at hlength
    refine ⟨hlength, fun j => ⟨fun hj => ?_, fun mean hmem hrows hfilled => ?_⟩⟩
    · rw [List.map_cons, List.mem_cons, not_or] at hj
      have hother : entry.1.toNat ≠ j := by omega
      obtain ⟨hrow, hfill⟩ := (hplaces j).1 hj.2
      rw [hrow, hfill]
      exact ⟨List.getElem?_set_ne hother, List.getElem?_set_ne hother⟩
    · rcases List.mem_cons.1 hmem with rfl | hmem
      · -- no later mean is of this cluster
        obtain ⟨hrow, hfill⟩ := (hplaces j).1 hnew
        rw [hrow, hfill, Int.toNat_natCast]
        exact ⟨List.getElem?_set_self hrows, List.getElem?_set_self hfilled⟩
      · exact (hplaces j).2 mean hmem (by rwa [List.length_set]) (by rwa [List.length_set])

/-- The clusters below `n` that are not among the given ones, ascending. -/
def missing (n : Nat) (clusters : List Int) : List Int :=
  ((List.range n).map fun (j : Nat) => (j : Int)).filter (· ∉ clusters)

theorem missing_congr {n : Nat} {clusters clusters' : List Int}
    (h : ∀ c, c ∈ clusters ↔ c ∈ clusters') : missing n clusters = missing n clusters' := by
  unfold missing
  exact List.filter_congr fun c _ => by rw [decide_eq_decide, h c]

/-- The clusters without a mark are those missing from any list of the ones with a mark. -/
theorem unfilled_eq_missing {filled : List Bool} {clusters : List Int}
    (h : ∀ j < filled.length, filled[j]? = some true ↔ (j : Int) ∈ clusters) :
    unfilled filled = missing filled.length clusters := by
  have hzip : filled.zipIdx = (List.range filled.length).map fun j => (filled.getD j false, j) := by
    apply List.ext_getElem (by simp)
    intro j hj _
    rw [List.length_zipIdx] at hj
    simp [hj]
  unfold unfilled missing
  rw [hzip, List.filter_map, List.map_map, List.filter_map]
  congr 1
  refine List.filter_congr fun j hj => ?_
  have hlt : j < filled.length := List.mem_range.1 hj
  have hmark := h j hlt
  rw [List.getElem?_eq_getElem hlt, Option.some.injEq] at hmark
  rw [Function.comp, Function.comp, List.getD_eq_getElem _ _ hlt]
  by_cases hmem : (j : Int) ∈ clusters
  · rw [hmark.2 hmem, decide_eq_false (not_not.2 hmem)]
    rfl
  · rw [Bool.eq_false_iff.2 (mt hmark.1 hmem), decide_eq_true hmem]
    rfl

variable {c c' : Collector} {previous next : Tensor α} {n : Nat}

/-- The next centroids row by row, and which clusters the collector remembers. -/
theorem collect_spec (hprevious : previous.shape = [n, width])
    (hnodup : (means.map (·.1)).Nodup) (hmeans : ∀ e ∈ means, e.2.shape = [width])
    (h : c.collect means previous = .ok (next, c')) :
    next.shape = [n, width] ∧
    (∀ j < n, ((j : Int) ∉ means.map (·.1) → next.rowLists[j]? = previous.rowLists[j]?) ∧
      ∀ mean, ((j : Int), mean) ∈ means → next.rowLists[j]? = some mean.entries) ∧
    c'.emptyClusters = missing n (means.map (·.1)) := by
  refine ⟨(shape_collect h).trans hprevious, ?_⟩
  unfold collect at h
  rw [Tensor.rowCount_of_shape hprevious, Tensor.innerShape_of_shape hprevious] at h
  obtain ⟨count, hcount, h⟩ := bind_eq_ok.1 h
  cases hcount
  split at h
  · cases h
  · obtain ⟨done, hdone, h⟩ := bind_eq_ok.1 h
    cases pure_eq_ok.1 h
    obtain ⟨-, hwidths⟩ := foldlM_place_rows hdone
      fun row hrow => Tensor.length_of_mem_rowLists hprevious hrow
    obtain ⟨hlength, hplaces⟩ := foldlM_place_spec hnodup hmeans hdone
    rw [List.length_replicate] at hlength
    rw [Tensor.rowLists_ofRowLists hwidths]
    have hbounds : ∀ j < n, j < previous.rowLists.length ∧ j < (List.replicate n false).length :=
      fun j hj => ⟨by rwa [Tensor.length_rowLists hprevious], by rwa [List.length_replicate]⟩
    refine ⟨fun j hj => ⟨fun hnot => ((hplaces j).1 hnot).1, fun mean hmem =>
      ((hplaces j).2 mean hmem (hbounds j hj).1 (hbounds j hj).2).1⟩, ?_⟩
    have hmarks : ∀ j < done.filled.length,
        done.filled[j]? = some true ↔ (j : Int) ∈ means.map (·.1) := by
      intro j hj
      have hlt := hbounds j (hlength ▸ hj)
      by_cases hmem : (j : Int) ∈ means.map (·.1)
      · obtain ⟨⟨key, mean⟩, hmean, rfl⟩ := List.mem_map.1 hmem
        exact iff_of_true ((hplaces j).2 mean hmean hlt.1 hlt.2).2 hmem
      · rw [((hplaces j).1 hmem).2, List.getElem?_replicate_of_lt (hlength ▸ hj)]
        exact iff_of_false (by simp) hmem
    exact (unfilled_eq_missing hmarks).trans (by rw [hlength])

end Collector

/-! ## What the partitions bring -/

section Contribution

variable [Scalar α] {m : Measure α} {k call width n w : Nat} {points centroids : Tensor α}
  {o : PartitionOutput α}

/-- The sums of a partition are sound, and tally its labels. -/
theorem Iteration.tallies_contribution (hpoints : points.shape = [n, w])
    (hsuits : n = 0 ∨ w = width) (h : contribution m k centroids call points = .ok o) :
    o.sums.Sound k width ∧ o.sums.Tallies o.labels := by
  obtain ⟨⟨labels, hnearest, hlabels⟩, hsums⟩ := labels_of_contribution h
  obtain ⟨htallies, hsound⟩ := Aggregate.tallies_accumulate hpoints hsums
  refine ⟨?_, htallies⟩
  rcases hsound with ⟨-, hnil⟩ | hsound
  · rw [hnil]
    exact Partial.sound_nil
  · rcases hsuits with hn | rfl
    · -- without points there are no labels, and so no sums
      rw [m.nearest_of_no_rows call centroids (by rw [Tensor.rowCount_of_shape hpoints, hn]),
        Except.ok.injEq] at hnearest
      subst hnearest
      rw [hlabels] at hsums
      have hnil : [] = o.sums := Except.ok.inj hsums
      rw [← hnil]
      exact Partial.sound_nil
    · exact hsound

end Contribution

/-- The outputs of a round merge into sums that tally all labels. -/
theorem Iteration.Brought.tallies [Scalar α] {plan : Plan α} {task : Task α} {width : Nat}
    {centroids : Tensor α} {outputs : List (PartitionOutput α)}
    (h : Brought plan task centroids outputs) (hshape : task.Shaped width centroids) :
    ∃ merged, Aggregate.reduce (outputs.map (·.sums)) = .ok merged ∧
      merged.Sound task.settings.k width ∧ merged.Tallies (outputs.map (·.labels)).flatten := by
  apply Partial.exists_reduce_tallies
  rw [List.forall₂_map_left_iff, List.forall₂_map_right_iff, List.forall₂_same]
  intro o ho
  obtain ⟨p, hp, call, hcontribution⟩ := h.of_mem ho
  obtain ⟨n, w, hpoints, hsuits⟩ := hshape.points p hp
  exact tallies_contribution hpoints hsuits hcontribution

/-- If the measure has a row for each point, every point of every partition has its label. -/
theorem Iteration.Brought.length_labels [Scalar α] {plan : Plan α} {task : Task α} {width : Nat}
    {centroids : Tensor α} {outputs : List (PartitionOutput α)}
    (h : Brought plan task centroids outputs) (hm : plan.measure.RowPerPoint)
    (hshape : task.Shaped width centroids) (hwidth : 0 < width) :
    (outputs.map (·.labels)).flatten.length = (task.points.map Tensor.rowTotal).sum := by
  obtain ⟨hlength, hall⟩ := List.forall₂_iff_zip.1 h
  have hsame : List.Forall₂ (fun p (o : PartitionOutput α) => p.rowTotal = o.labels.length)
      task.points outputs := by
    refine List.forall₂_iff_zip.2 ⟨hlength, fun {p o} hpo => ?_⟩
    obtain ⟨n, w, hpoints, hsuits⟩ := hshape.points p (List.of_mem_zip hpo).1
    obtain ⟨call, ho⟩ := hall hpo
    obtain ⟨⟨labels, hnearest, hlabels⟩, -⟩ := labels_of_contribution ho
    rw [Tensor.rowTotal_of_shape hpoints, hlabels, List.length_map]
    exact (hm.length_nearest hpoints hshape.centroids hsuits task.settings.k_pos hwidth
      hnearest).symm
  have hcounts : task.points.map Tensor.rowTotal = outputs.map fun o => o.labels.length := by
    rw [← List.forall₂_eq_eq_eq, List.forall₂_map_left_iff, List.forall₂_map_right_iff]
    exact hsame
  rw [List.length_flatten, List.map_map, hcounts]
  rfl

/-! ## What is known of a round -/

/-- What is known of a round that is over: the merged sums of its partitions, the labels that it
    gave, the centroids that it formed, and the clusters that the collector remembers since. -/
structure RoundRecord (α : Type) where
  merged : Partial α
  labels : List Int
  formed : Tensor α
  emptyClusters : List Int

namespace Iteration

variable [Scalar α] {plan : Plan α} {task : Task α} {width : Nat} {here : Standing α}
  {s s' : Session α}

/-- The first part of a round: what its partitions bring once it is prepared. -/
def gather (plan : Plan α) (here : Standing α) : Step α (List (PartitionOutput α)) := do
  prepare plan here
  return (← Step.timed (firePartitions plan here.epoch here.centroids)).1

theorem gather_brings (hplan : plan.settings = task.settings) (h : OnCourse task width here s) :
    (gather plan here).Ends s (fun outputs _ => Brought plan task here.centroids outputs)
      (fun _ _ => True) := by
  have hshape : task.Shaped width (here.mark s).centroids := h.shaped
  simp only [gather, Step.ends_bind, Step.ends_pure]
  refine (prepare_poises hplan h).mono (fun _ s₁ h₁ => ?_) fun _ _ _ => True.intro
  refine Step.ends_timed fun clock => ?_
  exact (fire_brings hplan hshape ((Session.SameHoldings.clock s₁ clock).poised h₁)).mono
    (fun _ _ hs => fun _ _ => hs.1) fun _ _ _ => fun _ => True.intro

/-! ## What a round leaves in the collector -/

theorem update_collects (outputs : List (PartitionOutput α)) (centroids : Tensor α)
    (s : Session α) :
    (update outputs centroids).Ends s
      (fun next s' => ∃ merged means, Aggregate.reduce (outputs.map (·.sums)) = .ok merged ∧
        merged.mapM (fun e => e.2.mean) = .ok means ∧
        s.collector.collect means centroids = .ok (next, s'.collector))
      (fun _ _ => True) := by
  simp only [update, Step.ends_bind, Step.ends_get]
  refine Step.ends_ofOutcome_of (fun merged hmerged => ?_) fun _ _ => True.intro
  refine Step.ends_ofOutcome_of (fun means hmeans => ?_) fun _ _ => True.intro
  refine Step.ends_ofOutcome_of (fun collected hcollected => ?_) fun _ _ => True.intro
  rw [Step.ends_set]
  -- that clusters were empty is only noted
  split
  · exact ⟨merged, means, hmerged, hmeans, hcollected⟩
  · exact ⟨merged, means, hmerged, hmeans, hcollected⟩

theorem askCriterion_collector (round : Int) (next previous : Tensor α) (s : Session α) :
    (askCriterion round next previous).Ends s (fun _ s' => s'.collector = s.collector)
      (fun _ _ => True) := by
  simp only [askCriterion, Step.ends_bind, Step.ends_get, Step.ends_set, Step.ends_note]
  exact Step.ends_ofOutcome_of (fun _ _ => rfl) fun _ _ => True.intro

omit [Scalar α] in
theorem announce_collector (first : Int) (stop : Bool) (report : RoundReport α) (s : Session α) :
    (announce first stop report).Ends s (fun _ s' => s'.collector = s.collector)
      (fun _ _ => True) := by
  unfold announce
  split
  · exact rfl
  · exact rfl

/-- The other part of a round makes the centroids out of what was gathered, and the collector is
    left as the collection of the means has left it. -/
theorem round_collects (plan : Plan α) (first : Int) (here : Standing α) (s : Session α) :
    (round plan first here).Ends s
      (fun out s' => ∃ outputs s₁ merged means, gather plan here s = .ok outputs s₁ ∧
        Aggregate.reduce (outputs.map (·.sums)) = .ok merged ∧
        merged.mapM (fun e => e.2.mean) = .ok means ∧
        s₁.collector.collect means here.centroids = .ok (out.1.centroids, s'.collector) ∧
        out.1.labels = (outputs.map (·.labels)).flatten)
      (fun _ _ => True) := by
  -- what the first part has come to is kept
  have hkeep {β : Type} (x : Step α β) (s : Session α) :
      x.Ends s (fun b s' => True ∧ x s = .ok b s') (fun _ _ => True) :=
    (Step.ends_of_forall (fun _ _ => True.intro) fun _ _ => True.intro).and_eq
  simp only [round, Step.ends_bind]
  refine (hkeep (prepare plan here) s).mono (fun _ s₁ hprepare => ?_) fun _ _ h => h
  refine (hkeep _ s₁).mono (fun fired s₂ hfired => ?_) fun _ _ h => h
  have hgather : gather plan here s = .ok fired.1 s₂ :=
    Step.bind_eq_ok.2 ⟨(), s₁, hprepare.2, Step.bind_eq_ok.2 ⟨fired, s₂, hfired.2, rfl⟩⟩
  refine Step.ends_timed fun clock => (update_collects fired.1 here.centroids _).mono
    (fun next s₃ hs₃ stretch clock' => ?_) fun _ _ _ _ => True.intro
  obtain ⟨merged, means, hmerged, hmeans, hcollected⟩ := hs₃
  rw [Step.ends_modify]
  refine Step.ends_ofOutcome_of (fun change _ => ?_) fun _ _ => True.intro
  refine (askCriterion_collector (here.epoch + 1) next here.centroids _).mono (fun stop s₄ hs₄ => ?_)
    fun _ _ h => h
  rw [Step.ends_get]
  refine (announce_collector first stop _ s₄).mono (fun _ s₅ hs₅ => ?_) fun _ _ h => h
  refine ⟨fired.1, s₂, merged, means, hgather, hmerged, hmeans, ?_, rfl⟩
  rw [hs₅, hs₄]
  exact hcollected

/-- What a round does, row by row: the clusters of its labels get the means of their merged sums,
    the others keep their centroids, and these are what the collector remembers. -/
theorem round_retains (hplan : plan.settings = task.settings) (first : Int)
    (h : OnCourse task width here s) :
    (round plan first here).Ends s
      (fun out s' => ∃ outputs s₁ merged, gather plan here s = .ok outputs s₁ ∧
        Aggregate.reduce (outputs.map (·.sums)) = .ok merged ∧
        merged.Sound task.settings.k width ∧ merged.Tallies out.1.labels ∧
        (∀ j < task.settings.k,
          ((j : Int) ∉ out.1.labels → out.1.centroids.rowLists[j]? = here.centroids.rowLists[j]?) ∧
          ∀ a, ((j : Int), a) ∈ merged → out.1.centroids.rowLists[j]?
            = some (a.sum.entries.map (· / Scalar.ofInt a.count))) ∧
        s'.collector.emptyClusters = Collector.missing task.settings.k out.1.labels)
      (fun _ _ => True) := by
  refine (round_collects plan first here s).mono (fun out s' hs' => ?_) fun _ _ h => h
  obtain ⟨outputs, s₁, merged, means, hgather, hmerged, hmeans, hcollect, hlabels⟩ := hs'
  have hbrought := (gather_brings hplan h).of_ok hgather
  obtain ⟨merged', hmerged', hsound, htallies⟩ := hbrought.tallies h.shaped
  rw [hmerged, Except.ok.injEq] at hmerged'
  subst hmerged'
  rw [← hlabels] at htallies
  refine ⟨outputs, s₁, merged, hgather, hmerged, hsound, htallies, ?_⟩
  -- every sum has a mean, under the key that it has
  have hmean : ∀ e ∈ merged, e.2.mean = .ok (e.1, e.2.sum.map (· / Scalar.ofInt e.2.count)) :=
    fun e he => (hsound.entries e he).mean_eq
  rw [mapM_eq_ok_map hmean, Except.ok.injEq] at hmeans
  have hkeys : means.map (·.1) = merged.map (·.1) := by
    rw [← hmeans, List.map_map]
    rfl
  have hshapes : ∀ e ∈ means, e.2.shape = [width] := by
    rw [← hmeans, List.forall_mem_map]
    exact fun e he => (hsound.entries e he).shape_eq
  have hmem : ∀ c, c ∈ means.map (·.1) ↔ c ∈ out.1.labels := fun c => by
    rw [hkeys, htallies.mem_keys_iff hsound]
  obtain ⟨-, hrows, hempty⟩ :=
    Collector.collect_spec h.shaped.centroids (hkeys ▸ hsound.nodup) hshapes hcollect
  refine ⟨fun j hj => ⟨fun hnot => (hrows j hj).1 (mt (hmem j).1 hnot), fun a ha => ?_⟩,
    hempty.trans (Collector.missing_congr hmem)⟩
  refine (hrows j hj).2 (a.sum.map (· / Scalar.ofInt a.count)) ?_
  rw [← hmeans]
  exact List.mem_map.2 ⟨_, ha, rfl⟩

end Iteration

/-! ## The rounds so far -/

/-- Where the row of a cluster comes from, by the records of the rounds there have been, the latest
    first: it is the mean of the cluster's merged sums in the latest round that gave it a point, or,
    if none has, its row of the first centroids. -/
inductive RowFrom [Scalar α] (initial : Tensor α) (j : Nat) : List (RoundRecord α) → List α → Prop
  | initial {row : List α} (row_eq : initial.rowLists[j]? = some row) : RowFrom initial j [] row
  | formed {now : RoundRecord α} {past : List (RoundRecord α)} {a : Accumulator α}
      (labelled : (j : Int) ∈ now.labels) (merged : ((j : Int), a) ∈ now.merged) :
      RowFrom initial j (now :: past) (a.sum.entries.map (· / Scalar.ofInt a.count))
  | kept {now : RoundRecord α} {past : List (RoundRecord α)} {row : List α}
      (unlabelled : (j : Int) ∉ now.labels) (before : RowFrom initial j past row) :
      RowFrom initial j (now :: past) row

namespace Iteration

variable [Scalar α]

/-- The records of the rounds that lead a run from its opening to a standing, the latest first. Only
    the latest may be of a round that stops the run. -/
inductive Recorded (plan : Plan α) (first : Int) (opened : Standing α) (s : Session α) :
    List (RoundRecord α) → Standing α → Bool → Session α → Prop
  | opened : Recorded plan first opened s [] opened false s
  | round {past : List (RoundRecord α)} {here next : Standing α} {s₁ s₂ s₃ : Session α}
      {outputs : List (PartitionOutput α)} {merged : Partial α} {stop : Bool}
      (before : Recorded plan first opened s past here false s₁)
      (gathered : gather plan here s₁ = .ok outputs s₂)
      (merges : Aggregate.reduce (outputs.map (·.sums)) = .ok merged)
      (round : Iteration.round plan first here s₁ = .ok (next, stop) s₃) :
      Recorded plan first opened s
        (⟨merged, next.labels, next.centroids, s₃.collector.emptyClusters⟩ :: past) next stop s₃

variable {plan : Plan α} {task : Task α} {width : Nat} {first : Int}
  {opened here next : Standing α} {s s₁ s₂ : Session α}

/-- There is a record of every round that is over. -/
theorem Passes.recorded (h : Passes plan first opened s here s₁) :
    ∃ past, Recorded plan first opened s past here false s₁ := by
  induction h with
  | here => exact ⟨[], .opened⟩
  | round _ hround ih =>
    obtain ⟨past, hpast⟩ := ih
    obtain ⟨_, _, _, _, hgather, hmerged, -⟩ := (round_collects _ _ _ _).of_ok hround
    exact ⟨_, .round hpast hgather hmerged hround⟩

/-- After any rounds every centroid comes from the latest of them with points of its cluster. -/
theorem Recorded.rows {rounds : List (RoundRecord α)} {stop : Bool}
    (h : Recorded plan first opened s rounds here stop s₁) (hplan : plan.settings = task.settings)
    (hstart : OnCourse task width opened s) :
    OnCourse task width here s₁ ∧ here.epoch = opened.epoch + rounds.length ∧
      ∀ j < task.settings.k, ∃ row, here.centroids.rowLists[j]? = some row ∧
        RowFrom opened.centroids j rounds row := by
  induction h with
  | opened =>
    refine ⟨hstart, (Int.add_zero _).symm, fun j hj => ?_⟩
    have hlt : j < opened.centroids.rowLists.length := by
      rwa [Tensor.length_rowLists hstart.shaped.centroids]
    exact ⟨_, List.getElem?_eq_getElem hlt, .initial (List.getElem?_eq_getElem hlt)⟩
  | @round past here next s₁ s₂ s₃ outputs merged stop before gathered merges hround ih =>
    obtain ⟨hhere, hepoch, hrows⟩ := ih
    obtain ⟨hnext, _, -, -, -, hsucc⟩ := (round_onCourse hplan first hhere).of_ok hround
    obtain ⟨outputs', s', merged', hgather, hmerged, hsound, htallies, hplaces, -⟩ :=
      (round_retains hplan first hhere).of_ok hround
    -- what was gathered and merged is what the record has
    rw [gathered] at hgather
    cases hgather
    rw [merges, Except.ok.injEq] at hmerged
    subst hmerged
    refine ⟨hnext, by rw [hsucc, hepoch, List.length_cons]; push_cast; omega, fun j hj => ?_⟩
    by_cases hlabel : (j : Int) ∈ next.labels
    · obtain ⟨⟨key, a⟩, ha, rfl⟩ := List.mem_map.1 ((htallies.mem_keys_iff hsound).2 hlabel)
      exact ⟨_, (hplaces j hj).2 a ha, .formed hlabel ha⟩
    · obtain ⟨row, hrow, hfrom⟩ := hrows j hj
      exact ⟨row, ((hplaces j hj).1 hlabel).trans hrow, .kept hlabel hfrom⟩

end Iteration

/-- In every round of a run the centroids are a matrix of the first ones' shape, and each of them is
    the mean of its cluster's merged sums in the latest round so far that gave it a point, or as it
    was at first if none has. The merged sums are of exactly the clusters that got points, with as
    many as got the label; if the measure has a row for each point these are all points of all
    partitions. And the collector remembers exactly the other clusters, ascending. -/
theorem centroids_are_latest_means [Scalar α] {plan : Plan α} {partitions : List (Tensor α)}
    {width : Nat} {r : Request α} {s s₁ s₂ : Session α} {first : Int}
    {here next : Iteration.Standing α} {stop : Bool} (hwidth : 0 < width)
    (hover : r.Over plan s ⟨plan.settings, plan.measure, partitions⟩ width)
    (hcollector : s.collector.k = plan.settings.k) (hcomes : r.ComesTo plan s first here s₁)
    (hround : Iteration.round plan first here s₁ = .ok (next, stop) s₂) :
    ∃ opened s₀ now past, r.opening plan s = .ok opened s₀ ∧
      (∀ initial, r = .run partitions initial → opened.centroids = initial) ∧
      Iteration.Recorded plan first opened s₀ (now :: past) next stop s₂ ∧
      next.epoch = first + (now :: past).length ∧
      next.centroids.shape = [plan.settings.k, width] ∧
      (∀ j < plan.settings.k, ∃ row, next.centroids.rowLists[j]? = some row ∧
        RowFrom opened.centroids j (now :: past) row) ∧
      (now.merged.map (·.1)).Nodup ∧ (∀ c, c ∈ now.merged.map (·.1) ↔ c ∈ next.labels) ∧
      (∀ e ∈ now.merged, e.2.cluster = e.1 ∧ 0 < e.2.count ∧ e.2.count = next.labels.count e.1 ∧
        e.2.sum.shape = [width]) ∧
      (now.merged.map (·.2.count)).sum = next.labels.length ∧
      (plan.measure.RowPerPoint →
        (now.merged.map (·.2.count)).sum = (partitions.map Tensor.rowTotal).sum) ∧
      s₂.collector.emptyClusters = Collector.missing plan.settings.k next.labels := by
  obtain ⟨opened, s₀, hopening, rfl, hpasses⟩ := hcomes
  obtain ⟨hopened, -, -⟩ := (Iteration.opening_onCourse rfl hcollector hwidth hover).of_ok hopening
  obtain ⟨past, hpast⟩ := hpasses.recorded
  obtain ⟨hhere, -, -⟩ := hpast.rows rfl hopened
  obtain ⟨outputs, s', merged, hgather, hmerged, hsound, htallies, -, hempty⟩ :=
    (Iteration.round_retains rfl opened.epoch hhere).of_ok hround
  have hnow := hpast.round hgather hmerged hround
  obtain ⟨hnext, hepoch, hrows⟩ := hnow.rows rfl hopened
  refine ⟨opened, s₀, _, past, hopening, ?_, hnow, hepoch, hnext.shaped.centroids, hrows,
    hsound.nodup, fun c => htallies.mem_keys_iff hsound, fun e he => ?_,
    htallies.sum_count hsound, fun hm => ?_, hempty⟩
  · rintro initial rfl
    obtain ⟨_, _, -, hopening⟩ := Step.bind_eq_ok.1 hopening
    obtain ⟨_, _, -, hopening⟩ := Step.bind_eq_ok.1 hopening
    cases hopening
    rfl
  · have hentry := hsound.entries e he
    exact ⟨hentry.cluster_eq, hentry.count_pos, htallies.count_eq hsound he, hentry.shape_eq⟩
  · obtain ⟨-, outputs', hbrought, -, hlabels, -⟩ :=
      (Iteration.round_onCourse rfl opened.epoch hhere).of_ok hround
    have hcount := hbrought.length_labels hm hhere.shaped hwidth
    rw [htallies.sum_count hsound, hlabels, hcount]

/-! ## A cluster that loses its points and gets one back -/

namespace Sample

/-- A plan of the sample with one worker and no checkpoint. -/
def exactPlan : Plan Rat where
  settings
  execution := { partitions := .int 2, workers := .int 1, chunk := none, timeout := .null }
  measure := .euclidean "EuclideanDistanceMeasure"
  period := none

def exactSession : Session Rat :=
  .start exactPlan (.ofSettings settings) (.empty "run.ckpt") (.stepping 0)

/-- Both points are nearest to the first centroid, until their mean has drawn it away. -/
def reviving : Request Rat := .run [column [0], column [8]] (column [10, 21 / 2])

theorem reviving_over : reviving.Over exactPlan exactSession
    ⟨exactPlan.settings, exactPlan.measure, [column [0], column [8]]⟩ 1 :=
  .run (by rfl) (by rfl)

theorem reviving_rounds : (reviving.twoRounds exactPlan).Ends exactSession
    (fun x _ => x.1.epoch = 0 ∧ x.2.1.2 = false ∧ x.2.1.1.labels = [0, 0] ∧
      x.2.1.1.centroids.rowLists = [[4], [21 / 2]] ∧ x.2.2.1.labels = [0, 1] ∧
      x.2.2.1.centroids.rowLists = [[0], [8]])
    (fun _ _ => False) := by decide +kernel

end Sample

/-- The second cluster keeps its first centroid for a round, and has a mean after the next. -/
theorem centroids_are_latest_means_sample : ∃ (here next last : Iteration.Standing Rat) (stop : Bool)
    (s₁ s₂ s₃ : Session Rat),
    Sample.reviving.ComesTo Sample.exactPlan Sample.exactSession 0 here s₁ ∧
    Iteration.round Sample.exactPlan 0 here s₁ = .ok (next, false) s₂ ∧
    s₂.collector.emptyClusters = [1] ∧
    (∃ now past, RowFrom (Sample.column [10, 21 / 2]) 1 (now :: past) [21 / 2]) ∧
    Iteration.round Sample.exactPlan 0 next s₂ = .ok (last, stop) s₃ ∧
    s₃.collector.emptyClusters = [] ∧
    ∃ now past, RowFrom (Sample.column [10, 21 / 2]) 1 (now :: past) [8] := by
  obtain ⟨⟨here, ⟨next, goesOn⟩, ⟨last, stop⟩⟩, s₃, hresult, hepoch, hgoesOn, hlabels, hrows,
    hlabels', hrows'⟩ := Sample.reviving_rounds.exists_ok fun _ _ h => h
  dsimp only at hepoch hgoesOn hlabels hrows hlabels' hrows'
  subst hgoesOn
  obtain ⟨s₁, s₂, hcomes, hround, hagain⟩ := Request.comesTo_of_twoRounds hresult
  rw [hepoch] at hcomes hround hagain
  -- the row that the theorem finds is the one that the round has formed
  obtain ⟨opened, s₀, now, past, -, hinitial, -, -, -, hfrom, -, -, -, -, -, hempty⟩ :=
    centroids_are_latest_means Nat.one_pos Sample.reviving_over rfl hcomes hround
  obtain ⟨row, hrow, hkept⟩ := hfrom 1 Nat.one_lt_two
  obtain ⟨opened', s₀', now', past', -, hinitial', -, -, -, hfrom', -, -, -, -, -, hempty'⟩ :=
    centroids_are_latest_means Nat.one_pos Sample.reviving_over rfl (hcomes.round hround) hagain
  obtain ⟨row', hrow', hformed⟩ := hfrom' 1 Nat.one_lt_two
  rw [hinitial _ rfl] at hkept
  rw [hinitial' _ rfl] at hformed
  rw [hrows] at hrow
  rw [hrows'] at hrow'
  cases hrow
  cases hrow'
  refine ⟨here, next, last, stop, s₁, s₂, s₃, hcomes, hround, ?_, ⟨now, past, hkept⟩, hagain, ?_,
    now', past', hformed⟩
  · rw [hempty, hlabels]
    rfl
  · rw [hempty', hlabels']
    rfl

end ClusterRounds
