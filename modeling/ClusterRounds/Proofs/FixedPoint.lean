/-
  ClusterRounds.Proofs.FixedPoint

  Rounds that change nothing. What a partition adds up depends on its points and their
  labels alone, and means that have been put in their places are there already when the
  same ones come again (`Collector.collect_again`). So once two rounds in a row give the
  same labels, the centroids stay (`Task.Forms.again`), and as a round is a function of
  its centroids (`Task.Forms.unique`), they and the labels stay for good. No law of
  arithmetic is needed for this; only that a run ends then takes one, that a finite double
  less itself is zero.
-/

import ClusterRounds.Proofs.Passage

namespace ClusterRounds

variable {α : Type}

/-! ## Means that come again -/

namespace Collector

variable {k : Int} {inner : Shape} {p p' done : Progress α} {entry : Int × Tensor α}
  {means : List (Int × Tensor α)}

/-- No mean comes to a place that is filled. -/
theorem foldlM_place_filled {i : Nat} (h : means.foldlM (place k inner) p = .ok done)
    (hfilled : p.filled.getD i false = true) : done.rows[i]? = p.rows[i]? := by
  induction means generalizing p with
  | nil =>
    cases pure_eq_ok.1 h
    rfl
  | cons entry means ih =>
    rw [List.foldlM_cons] at h
    obtain ⟨mid, hmid, h⟩ := bind_eq_ok.1 h
    obtain ⟨-, hfree, row, -, rfl⟩ := place_eq_ok.1 hmid
    have hother : entry.1.toNat ≠ i := by
      rintro rfl
      rw [hfilled] at hfree
      cases hfree
    have hkept : (p.filled.set entry.1.toNat true).getD i false = true := by
      rw [List.getD_eq_getElem?_getD, List.getElem?_set_ne hother, ← List.getD_eq_getElem?_getD]
      exact hfilled
    rw [ih h hkept]
    exact List.getElem?_set_ne hother

/-- Where means have been put already, they change nothing. -/
theorem foldlM_place_again {rows : List (List α)} {filled : List Bool}
    (h : means.foldlM (place k inner) ⟨rows, filled⟩ = .ok done) (hk : k ≤ filled.length) :
    means.foldlM (place k inner) ⟨done.rows, filled⟩ = .ok done := by
  induction means generalizing rows filled with
  | nil =>
    cases pure_eq_ok.1 h
    rfl
  | cons entry means ih =>
    rw [List.foldlM_cons] at h
    obtain ⟨mid, hmid, h⟩ := bind_eq_ok.1 h
    obtain ⟨hrange, hfree, row, hrow, rfl⟩ := place_eq_ok.1 hmid
    have hlt : entry.1.toNat < filled.length := by omega
    -- the later means leave this one alone, so it stands in its place
    have hstands : done.rows.set entry.1.toNat row = done.rows := by
      have hkept := foldlM_place_filled h (i := entry.1.toNat) (by simp [hlt])
      apply List.ext_getElem?
      intro j
      by_cases hj : entry.1.toNat = j
      · subst hj
        rw [hkept, List.getElem?_set_self', List.getElem?_set_self', hkept,
          List.getElem?_set_self']
        cases rows[entry.1.toNat]? <;> rfl
      · rw [List.getElem?_set_ne hj]
    have hagain : place k inner ⟨done.rows, filled⟩ entry
        = .ok ⟨done.rows, filled.set entry.1.toNat true⟩ :=
      place_eq_ok.2 ⟨hrange, hfree, row, hrow, by rw [hstands]⟩
    rw [List.foldlM_cons, hagain]
    exact ih h (by rw [List.length_set]; exact hk)

/-- Out of the same means the centroids that they have formed are formed again. -/
theorem collect_again {c c' : Collector} {previous next : Tensor α}
    (h : c.collect means previous = .ok (next, c')) :
    c.collect means next = .ok (next, c') := by
  have hshape := shape_collect h
  unfold collect at h
  obtain ⟨count, hcount, h⟩ := bind_eq_ok.1 h
  obtain ⟨inner, hprevious⟩ := Tensor.exists_shape_of_rowCount (ofOperands_eq_ok.1 hcount)
  split at h
  · cases h
  · rename_i hk
    obtain ⟨done, hdone, h⟩ := bind_eq_ok.1 h
    cases pure_eq_ok.1 h
    rw [Tensor.innerShape_of_shape hprevious] at hdone hshape ⊢
    obtain ⟨-, hrows⟩ := foldlM_place_rows hdone
      fun row hrow => Tensor.length_of_mem_rowLists hprevious hrow
    have hnext := hshape.trans hprevious
    have hagain := foldlM_place_again hdone (by simpa using Int.le_of_eq (not_not.1 hk).symm)
    unfold collect
    rw [Tensor.rowCount_of_shape hnext, Tensor.innerShape_of_shape hnext,
      Tensor.rowLists_ofRowLists hrows]
    refine bind_eq_ok.2 ⟨count, rfl, ?_⟩
    rw [if_neg hk]
    exact bind_eq_ok.2 ⟨done, hagain, rfl⟩

end Collector

/-- Only the sums of the outputs make the centroids, and they make them again. -/
theorem nextCentroids_again [Scalar α] {k : Nat} {outputs outputs' : List (PartitionOutput α)}
    {centroids next : Tensor α} (h : nextCentroids k outputs centroids = .ok next)
    (hsums : outputs'.map (·.sums) = outputs.map (·.sums)) :
    nextCentroids k outputs' next = .ok next := by
  obtain ⟨merged, means, collector, hmerged, hmeans, hcollect⟩ := nextCentroids_eq_ok.1 h
  exact nextCentroids_eq_ok.2
    ⟨merged, means, collector, hsums ▸ hmerged, hmeans, Collector.collect_again hcollect⟩

/-! ## The labels of single points -/

/-- Where the measure answers about points and centroids of one width, it answers with a row for
    each point. -/
def Measure.RowPerPoint (m : Measure α) : Prop :=
  ∀ (call : Nat) (points centroids : Tensor α) (n k width : Nat) (matrix : DistanceMatrix α),
    points.shape = [n, width] → centroids.shape = [k, width] → 0 < n → 0 < k → 0 < width →
    m.pairwise call points centroids = .ok matrix → matrix.length = n

theorem Measure.Answers.rowPerPoint {m : Measure α} (h : m.Answers) : m.RowPerPoint := by
  intro call points centroids n k width matrix hpoints hcentroids hn hk hwidth hmatrix
  obtain ⟨matrix', hmatrix', hlength, -⟩ :=
    h call points centroids n k width hpoints hcentroids hn hk hwidth
  rw [hmatrix, Except.ok.injEq] at hmatrix'
  rw [hmatrix', hlength]

section Labels

variable [Scalar α] {m : Measure α} {k call : Nat} {points centroids : Tensor α}

/-- Every point gets the same label by both centroids. -/
def Measure.LabelsAlike (m : Measure α) (partitions : List (Tensor α))
    (centroids centroids' : Tensor α) : Prop :=
  ∀ points ∈ partitions, ∀ call,
    m.nearest call points centroids = m.nearest call points centroids'

theorem Measure.RowPerPoint.length_nearest (h : m.RowPerPoint) {n w width : Nat}
    (hpoints : points.shape = [n, w]) (hcentroids : centroids.shape = [k, width])
    (hsuits : n = 0 ∨ w = width) (hk : 0 < k) (hwidth : 0 < width) {labels : List Nat}
    (hlabels : m.nearest call points centroids = .ok labels) : labels.length = n := by
  by_cases hn : n = 0
  · subst hn
    rw [m.nearest_of_no_rows call centroids (Tensor.rowCount_of_shape hpoints),
      Except.ok.injEq] at hlabels
    rw [← hlabels, List.length_nil]
  · obtain rfl : w = width := hsuits.resolve_left hn
    unfold Measure.nearest at hlabels
    rw [Tensor.rowCount_of_shape hpoints, ofOperands_ok] at hlabels
    obtain ⟨_, hcount, hlabels⟩ := bind_eq_ok.1 hlabels
    cases hcount
    rw [if_neg hn] at hlabels
    obtain ⟨matrix, hmatrix, hlabels⟩ := bind_eq_ok.1 hlabels
    rw [ofOperands_eq_ok] at hlabels
    rw [← (mapM_eq_ok.1 hlabels).length_eq]
    exact h call points centroids n k w matrix hpoints hcentroids (Nat.pos_of_ne_zero hn) hk hwidth
      hmatrix

/-- What a partition brings: its labels, and the sums that these make of its points. -/
theorem Iteration.labels_of_contribution {o : PartitionOutput α}
    (h : contribution m k centroids call points = .ok o) :
    (∃ labels, m.nearest call points centroids = .ok labels ∧
      o.labels = labels.map fun (l : Nat) => (l : Int)) ∧
    Aggregate.accumulate ⟨0, o.labels, points⟩ k = .ok o.sums := by
  obtain ⟨labels, hlabels, h⟩ := bind_eq_ok.1 h
  obtain ⟨sums, hsums, h⟩ := bind_eq_ok.1 h
  -- with points or without, only the inertia is left
  obtain ⟨inertia, h⟩ : ∃ inertia, pure ⟨sums, inertia, labels.map fun (l : Nat) => (l : Int)⟩
      = (.ok o : Outcome _) := by
    dsimp only at h
    split at h
    · exact ⟨0, h⟩
    · obtain ⟨inertia, -, h⟩ := bind_eq_ok.1 h
      exact ⟨inertia, h⟩
  cases pure_eq_ok.1 h
  exact ⟨⟨labels, hlabels, rfl⟩, hsums⟩

end Labels

/-- Two answers about each element, alike in one respect. -/
theorem map_eq_map_of_mapM {ε β γ δ : Type} {f f' : β → Except ε γ} {g : γ → δ} :
    ∀ {xs : List β} {ys ys' : List γ}, xs.mapM f = .ok ys → xs.mapM f' = .ok ys' →
      (∀ x ∈ xs, ∀ y y', f x = .ok y → f' x = .ok y' → g y = g y') → ys.map g = ys'.map g
  | [], _, _, h, h', _ => by
    cases pure_eq_ok.1 h
    cases pure_eq_ok.1 h'
    rfl
  | x :: xs, ys, ys', h, h', hall => by
    rw [mapM_eq_ok] at h h'
    obtain ⟨y, rest, hy, hrest, rfl⟩ := List.forall₂_cons_left_iff.1 h
    obtain ⟨y', rest', hy', hrest', rfl⟩ := List.forall₂_cons_left_iff.1 h'
    have ih := map_eq_map_of_mapM (mapM_eq_ok.2 hrest) (mapM_eq_ok.2 hrest') fun z hz =>
      hall z (List.mem_cons_of_mem x hz)
    rw [List.map_cons, List.map_cons, ih, hall x List.mem_cons_self y y' hy hy']

/-! ## What a round forms -/

namespace Task

variable [Scalar α] {task : Task α} {width : Nat} {centroids centroids' : Tensor α}
  {outputs outputs' : List (PartitionOutput α)} {here next : Iteration.Standing α}

/-- A round by the centroids ends at the standing, as far as the centroids there and the labels
    go. -/
def Forms (task : Task α) (centroids : Tensor α) (here : Iteration.Standing α) : Prop :=
  ∃ outputs, task.outputs centroids = .ok outputs ∧
    nextCentroids task.settings.k outputs centroids = .ok here.centroids ∧
    here.labels = (outputs.map (·.labels)).flatten

/-- The centroids decide what is formed. -/
theorem Forms.unique (h : task.Forms centroids here) (h' : task.Forms centroids next) :
    next.centroids = here.centroids ∧ next.labels = here.labels := by
  obtain ⟨outputs, houtputs, hcentroids, hlabels⟩ := h
  obtain ⟨outputs', houtputs', hcentroids', hlabels'⟩ := h'
  rw [houtputs, Except.ok.injEq] at houtputs'
  subst houtputs'
  rw [hcentroids, Except.ok.injEq] at hcentroids'
  exact ⟨hcentroids'.symm, hlabels'.trans hlabels.symm⟩

/-- The sums are made of the points and their labels. -/
theorem sums_of_outputs (h : task.outputs centroids = .ok outputs) :
    (task.points.zip (outputs.map (·.labels))).mapM
      (fun e => Aggregate.accumulate ⟨0, e.2, e.1⟩ task.settings.k)
      = .ok (outputs.map (·.sums)) := by
  replace h := mapM_eq_ok.1 h
  rw [mapM_eq_ok]
  generalize task.points = partitions at h
  induction h with
  | nil => exact .nil
  | cons ho _ ih => exact .cons (Iteration.labels_of_contribution ho).2 ih

/-- Labels in one list that are the same are so partition by partition, if every point has one. -/
theorem labels_eq_of_flatten (hm : task.measure.RowPerPoint) (hshape : task.Shaped width centroids)
    (hshape' : task.Shaped width centroids') (hwidth : 0 < width)
    (h : task.outputs centroids = .ok outputs) (h' : task.outputs centroids' = .ok outputs')
    (hflat : (outputs.map (·.labels)).flatten = (outputs'.map (·.labels)).flatten) :
    outputs.map (·.labels) = outputs'.map (·.labels) := by
  refine List.eq_iff_flatten_eq.2 ⟨hflat, ?_⟩
  rw [List.map_map, List.map_map]
  refine map_eq_map_of_mapM h h' fun p hp o o' ho ho' => ?_
  obtain ⟨n, w, hpoints, hsuits⟩ := hshape.points p hp
  obtain ⟨⟨labels, hl, hlabels⟩, -⟩ := Iteration.labels_of_contribution ho
  obtain ⟨⟨labels', hl', hlabels'⟩, -⟩ := Iteration.labels_of_contribution ho'
  rw [Function.comp, Function.comp, hlabels, hlabels', List.length_map, List.length_map,
    hm.length_nearest hpoints hshape.centroids hsuits task.settings.k_pos hwidth hl,
    hm.length_nearest hpoints hshape'.centroids hsuits task.settings.k_pos hwidth hl']

theorem labels_eq_of_alike (halike : task.measure.LabelsAlike task.points centroids centroids')
    (h : task.outputs centroids = .ok outputs) (h' : task.outputs centroids' = .ok outputs') :
    outputs.map (·.labels) = outputs'.map (·.labels) := by
  refine map_eq_map_of_mapM h h' fun p hp o o' ho ho' => ?_
  obtain ⟨⟨labels, hl, hlabels⟩, -⟩ := Iteration.labels_of_contribution ho
  obtain ⟨⟨labels', hl', hlabels'⟩, -⟩ := Iteration.labels_of_contribution ho'
  rw [halike p hp 0, hl', Except.ok.injEq] at hl
  rw [hlabels, hlabels', hl]

/-- If the labels are those of the round before, so are the centroids. -/
theorem Forms.again (h : task.Forms centroids here) (h' : task.Forms here.centroids next)
    (hshape : task.Shaped width centroids) (hshape' : task.Shaped width here.centroids)
    (hwidth : 0 < width)
    (hlabels : task.measure.LabelsAlike task.points centroids here.centroids ∨
      task.measure.RowPerPoint ∧ next.labels = here.labels) :
    next.centroids = here.centroids ∧ next.labels = here.labels := by
  obtain ⟨outputs, houtputs, hcentroids, hflat⟩ := h
  obtain ⟨outputs', houtputs', hcentroids', hflat'⟩ := h'
  have hsame : outputs.map (·.labels) = outputs'.map (·.labels) := by
    rcases hlabels with halike | ⟨hm, hnext⟩
    · exact labels_eq_of_alike halike houtputs houtputs'
    · rw [hflat, hflat'] at hnext
      exact labels_eq_of_flatten hm hshape hshape' hwidth houtputs houtputs' hnext.symm
  have hsums := sums_of_outputs houtputs
  rw [hsame, sums_of_outputs houtputs', Except.ok.injEq] at hsums
  rw [nextCentroids_again hcentroids hsums, Except.ok.injEq] at hcentroids'
  exact ⟨hcentroids'.symm, by rw [hflat', ← hsame, hflat]⟩

end Task

/-! ## Runs under way -/

/-- The run stands before a round with all its points, whatever may stand in the way of its
    checkpoint. -/
structure OnCourse (task : Task α) (width : Nat) (here : Iteration.Standing α) (s : Session α) :
    Prop where
  shaped : task.Shaped width here.centroids
  poised : Poised task (here.mark s) here.handedOut s

/-- A run over the points by centroids of a width, from initial ones that are accepted or from a
    snapshot that records the points. -/
inductive Request.Over (plan : Plan α) (s : Session α) (task : Task α) (width : Nat) :
    Request α → Prop
  | run {initial : Tensor α}
      (accepted : Iteration.checkInputs task.settings task.points initial = .ok ())
      (shape : initial.shape = [task.settings.k, width]) :
      Over plan s task width (.run task.points initial)
  | resume {z : Snapshot α} {mark : Mark α} {given : Option (Snapshot α)}
      (takes : Iteration.Takes plan given s z) (records : z.Records task mark)
      (epoch : 0 ≤ mark.epoch) (shaped : task.Shaped width mark.centroids)
      (points : task.points ≠ []) : Over plan s task width (.resume given)

namespace Iteration

variable {plan : Plan α} {task : Task α} {width : Nat} {here : Standing α} {r : Request α}
  {s : Session α}

/-- Before its first round a run over accepted inputs has all its points. -/
theorem opening_onCourse_run (hplan : plan.settings = task.settings)
    (hk : s.collector.k = task.settings.k) {initial : Tensor α}
    (haccepted : checkInputs task.settings task.points initial = .ok ())
    (hshape : initial.shape = [task.settings.k, width]) :
    ((Request.run task.points initial).opening plan).Ends s
      (fun here s' => OnCourse task width here s' ∧ here.epoch = 0 ∧ s'.criterion = s.criterion)
      (fun _ _ => True) := by
  obtain ⟨hpoints, hshaped⟩ := shaped_start haccepted hshape
  simp only [Request.opening, Step.ends_bind, Step.ends_pure]
  refine (start_musters hplan haccepted hk).mono (fun _ s₁ hs₁ => ?_) fun _ _ _ => True.intro
  obtain ⟨hmustered, -, hcriterion₁⟩ := hs₁
  refine (enter_poises hpoints hmustered).mono (fun _ s₂ hs₂ => ?_) fun _ _ _ => True.intro
  obtain ⟨hpoised, -, -, hcriterion₂⟩ := hs₂
  refine ⟨⟨hshaped, ?_⟩, rfl, hcriterion₂.trans hcriterion₁⟩
  rw [Standing.mark, hpoised.inertia]
  exact hpoised

/-- So has one that takes up a snapshot. -/
theorem opening_onCourse (hplan : plan.settings = task.settings)
    (hk : s.collector.k = task.settings.k) (hwidth : 0 < width) (hover : r.Over plan s task width) :
    (r.opening plan).Ends s
      (fun here s' => OnCourse task width here s' ∧ 0 ≤ here.epoch ∧ s'.criterion = s.criterion)
      (fun _ _ => True) := by
  cases hover with
  | run accepted shape =>
    refine (opening_onCourse_run hplan hk accepted shape).mono (fun here s' hs' => ?_)
      fun _ _ h => h
    exact ⟨hs'.1, Int.le_of_eq hs'.2.1.symm, hs'.2.2⟩
  | @resume z mark given takes records epoch shaped points =>
    have hgiven : given = some z ∨ given = none ∧ s.slot.held = .snapshot z :=
      takes.imp_right fun h => ⟨h.1, h.2.2⟩
    simp only [Request.opening, Step.ends_bind, Step.ends_pure]
    refine (takeUp_musters hplan records shaped hwidth epoch points hk hgiven).mono
      (fun y s₁ hs₁ => ?_) fun _ _ _ => True.intro
    obtain ⟨rfl, hmustered, -, hcriterion₁⟩ := hs₁
    refine (enter_poises points hmustered).mono (fun _ s₂ hs₂ => ?_) fun _ _ _ => True.intro
    obtain ⟨hpoised, -, -, hcriterion₂⟩ := hs₂
    rw [records.centroids_eq, records.epoch_eq]
    refine ⟨⟨shaped, ?_⟩, epoch, hcriterion₂.trans hcriterion₁⟩
    rw [Standing.mark, hpoised.inertia]
    exact hpoised

/-- Preparing a round leaves the operators before its boundary. -/
theorem prepare_poises (hplan : plan.settings = task.settings) (h : OnCourse task width here s) :
    (prepare plan here).Ends s (fun _ s' => Poised task (here.mark s) true s')
      (fun _ _ => True) := by
  have hshape : task.Shaped width (here.mark s).centroids := h.shaped
  unfold prepare
  cases hhanded : here.handedOut with
  | true =>
    have hpoised : Poised task (here.mark s) true s := hhanded ▸ h.poised
    exact hpoised
  | false =>
    have hpoised : Poised task (here.mark s) false s := hhanded ▸ h.poised
    simp only [Bool.not_false, if_true, Step.ends_bind]
    refine (broadcast_ends hpoised).mono (fun _ s₁ hs₁ => ?_) fun _ _ _ => True.intro
    refine (checkpoint_cases plan here.epoch here.centroids s₁).mono (fun _ s₂ hs₂ => ?_)
      fun _ _ _ => True.intro
    cases hs₂ with
    | skipped => exact hs₁.1
    | saved wanted taken save =>
      obtain ⟨-, h₂, -⟩ := (takeSnapshot_ends hplan hshape hs₁.1).of_ok taken
      exact ⟨h₂.lineup, h₂.barrier, h₂.collector, h₂.inertia⟩

variable [Scalar α]

/-- A round ends at what its partitions have brought, whatever the measure is, and the run still has
    its points then. -/
theorem round_onCourse (hplan : plan.settings = task.settings) (first : Int)
    (h : OnCourse task width here s) :
    (round plan first here).Ends s
      (fun out s' => OnCourse task width out.1 s' ∧ ∃ outputs,
        Brought plan task here.centroids outputs ∧
        nextCentroids task.settings.k outputs here.centroids = .ok out.1.centroids ∧
        out.1.labels = (outputs.map (·.labels)).flatten ∧ out.1.epoch = here.epoch + 1)
      (fun _ _ => True) := by
  have hshape : task.Shaped width (here.mark s).centroids := h.shaped
  rw [round_eq_bind, Step.ends_bind]
  refine (prepare_poises hplan h).mono (fun _ s₁ h₁ => ?_) fun _ _ _ => True.intro
  refine (work_brings hplan hshape first rfl rfl h₁).mono (fun out s₂ hs₂ => ?_)
    fun _ _ _ => True.intro
  obtain ⟨outputs, t, hbrought, hturn, -, hafter, hpoised, -⟩ := hs₂
  have hmark := hafter.mark_eq hpoised.inertia
  have hnext := hshape.turnFrom hturn
  obtain ⟨next, _, _, hcentroids, -, -, rfl⟩ := Task.turnFrom_eq_ok.1 hturn
  refine ⟨⟨?_, ?_⟩, outputs, hbrought, ?_, hafter.labels_eq, hafter.epoch_eq⟩
  · rw [hafter.centroids_eq]
    exact hnext
  · rw [hmark, hafter.handedOut_eq]
    exact hpoised
  · rw [hafter.centroids_eq]
    exact hcentroids

/-- What a round ends at is formed by the centroids before it. -/
theorem round_forms (hplan : plan.Serves task) (first : Int) (h : OnCourse task width here s) :
    (round plan first here).Ends s
      (fun out s' => OnCourse task width out.1 s' ∧ task.Forms here.centroids out.1)
      (fun _ _ => True) := by
  refine (round_onCourse hplan.settings_eq first h).mono (fun out s' hs' => ?_)
    fun _ _ _ => True.intro
  obtain ⟨hnext, outputs, hbrought, hcentroids, hlabels, -⟩ := hs'
  have hshape : task.Shaped width (here.mark s).centroids := h.shaped
  exact ⟨hnext, outputs, hbrought.outputs_eq hplan.measure hshape, hcentroids, hlabels⟩

/-- Wherever rounds lead from there, the run still has its points. -/
theorem Passes.onCourse (hplan : plan.settings = task.settings) {first : Int} {mid : Standing α}
    {s₁ : Session α} (h : Passes plan first here s mid s₁) (hstart : OnCourse task width here s) :
    OnCourse task width mid s₁ :=
  h.invariant (I := fun here s => OnCourse task width here s) hstart fun h hround =>
    ((round_onCourse hplan _ h).of_ok hround).1

/-- By centroids that form themselves every round forms the same, and gives the same labels. -/
theorem round_repeats (hplan : plan.Serves task) {first : Int} {known mid later : Standing α}
    {stop : Bool} {s₁ s₂ : Session α} (h : Passes plan first here s mid s₁)
    (hstart : OnCourse task width here s) (hknown : task.Forms here.centroids known)
    (hsame : known.centroids = here.centroids)
    (hround : round plan first mid s₁ = .ok (later, stop) s₂) :
    later.centroids = known.centroids ∧ later.labels = known.labels := by
  have hforms {mid later : Standing α} {s s' : Session α} {stop : Bool}
      (hmid : OnCourse task width mid s ∧ mid.centroids = here.centroids)
      (hround : round plan first mid s = .ok (later, stop) s') :
      OnCourse task width later s' ∧ task.Forms here.centroids later := by
    rw [← hmid.2]
    exact (round_forms hplan first hmid.1).of_ok hround
  refine hknown.unique (hforms ?_ hround).2
  refine h.invariant (I := fun mid s => OnCourse task width mid s ∧ mid.centroids = here.centroids)
    ⟨hstart, rfl⟩ fun hmid hround => ?_
  obtain ⟨hlater, hformed⟩ := hforms hmid hround
  exact ⟨hlater, (hknown.unique hformed).1.trans hsame⟩

end Iteration

namespace Request

open Iteration

section Way

variable [Scalar α] {plan : Plan α} {task : Task α} {width : Nat} {r : Request α} {first : Int}
  {here : Standing α} {s s₁ : Session α} (hplan : plan.Serves task)
  (hk : s.collector.k = task.settings.k) (hwidth : 0 < width) (hover : r.Over plan s task width)
  (hcomes : r.ComesTo plan s first here s₁)

include hplan hk hwidth hover hcomes

theorem ComesTo.onCourse : OnCourse task width here s₁ ∧ 0 ≤ first ∧ first ≤ here.epoch := by
  obtain ⟨opened, s₀, hopening, rfl, hpasses⟩ := hcomes
  obtain ⟨hopened, hepoch, -⟩ :=
    (opening_onCourse hplan.settings_eq hk hwidth hover).of_ok hopening
  exact ⟨hpasses.onCourse hplan.settings_eq hopened, hepoch, hpasses.epoch_le⟩

/-- The criterion of the settings is still theirs. -/
theorem ComesTo.remembers (hcriterion : ∃ l, s.criterion = .remembering plan.settings l) :
    ∃ l, s₁.criterion = .remembering plan.settings l := by
  obtain ⟨opened, s₀, hopening, rfl, hpasses⟩ := hcomes
  obtain ⟨-, -, hsame⟩ := (opening_onCourse hplan.settings_eq hk hwidth hover).of_ok hopening
  refine hpasses.invariant (I := fun _ s => ∃ l, s.criterion = .remembering plan.settings l)
    (hsame ▸ hcriterion) fun ⟨l, hl⟩ hround => ?_
  exact (((round_countsOne _ _ _).of_ok hround).stops_iff hl).2.2

end Way

end Request

/-! ## Finite numbers that stay -/

/-- A finite number less itself is the positive zero, whatever its sign. -/
theorem Number.sub_unpacked_self {x : Float.Model.UnpackedFloat} (h : x.isFinite) :
    x.sub .binary64 x = .zero .positive := by
  cases x with
  | notANumber => cases h
  | infinity sign => cases h
  | zero sign => cases sign <;> rfl
  | finite sign m e hm =>
    show Float.Model.UnpackedFloat.normalize .binary64 (sign.apply _ - sign.apply _) (min e e)
      .positive = _
    rw [Int.sub_self]
    rfl

theorem Number.sub_self_of_isFinite {x : Float} (h : x.isFinite) : x - x = 0 := by
  show Float.ofModel (Float.Model.pack (.sub .binary64 x.toModel.unpack x.toModel.unpack)) = 0
  rw [sub_unpacked_self h]
  rfl

/-- Finite coordinates that stay where they are have moved by nothing. -/
theorem Quality.shift_self {centroids : Tensor Float} (hne : centroids.entries ≠ [])
    (hfinite : ∀ x ∈ centroids.entries, x.isFinite) :
    Quality.shift centroids centroids = .ok 0 := by
  have hentries : (Tensor.zipSame (· - ·) centroids centroids rfl).entries
      = centroids.entries.map fun _ => 0 := by
    show List.zipWith (· - ·) centroids.entries centroids.entries = _
    rw [List.zipWith_self]
    exact List.map_congr_left fun x hx => Number.sub_self_of_isFinite (hfinite x hx)
  -- zeros have the magnitude zero, and none of them is larger than another
  have hmagnitude : (Scalar.magnitude ∘ fun _ => 0 : Float → Float) = fun _ => 0 :=
    funext fun _ => (by decide +kernel : Scalar.magnitude (0 : Float) = 0)
  have hlarger : Scalar.larger (0 : Float) 0 = 0 := by decide +kernel
  have hlargest : ∀ xs : List Float, (xs.map fun _ => 0).foldl Scalar.larger 0 = (0 : Float) := by
    intro xs
    induction xs with
    | nil => rfl
    | cons x xs ih => rw [List.map_cons, List.foldl_cons, hlarger, ih]
  rw [Quality.shift, Tensor.zipWith_of_shape _ rfl]
  show Scalar.maximum (List.map _ (Tensor.zipSame (· - ·) centroids centroids rfl).entries) = _
  rw [hentries, List.map_map, hmagnitude]
  cases hc : centroids.entries with
  | nil => exact absurd hc hne
  | cons x rest => exact congrArg Except.ok (hlargest rest)

/-- Such coordinates are settled by a tolerance above zero. -/
theorem Settings.settled_self {settings : Settings} {centroids : Tensor Float} {width : Nat}
    {t : Quantity} (hshape : centroids.shape = [settings.k, width]) (hwidth : 0 < width)
    (htolerance : settings.tolerance = some t) (habove : t.aboveFloat 0)
    (hfinite : ∀ x ∈ centroids.entries, x.isFinite) : settings.Settled centroids centroids := by
  refine ⟨t, 0, htolerance, Quality.shift_self ?_ hfinite, habove⟩
  apply List.ne_nil_of_length_pos
  rw [Tensor.length_entries_of_shape hshape]
  exact Nat.mul_pos settings.k_pos hwidth

/-! ## Labels that are repeated -/

/-- As soon as two rounds in a row give the same labels, be it to the points of each partition or,
    if the measure answers with a row for each point, in one list, the later one of them forms the
    centroids of the earlier one, and so does every round after it, with the same labels; whatever
    the run returns has these. And if they are finite, and the run is to stop when they have moved
    by less than a tolerance above zero, then it is the later round in which it stops, and it has
    converged. -/
theorem repeated_labels_fix_the_centroids {plan : Plan Float} {partitions : List (Tensor Float)}
    {width : Nat} {r : Request Float} {s s₁ s₂ s₃ : Session Float} {first : Int}
    {here next last : Iteration.Standing Float} {stop : Bool}
    (hstateless : plan.measure.Stateless) (hwidth : 0 < width)
    (hover : r.Over plan s ⟨plan.settings, plan.measure, partitions⟩ width)
    (hcollector : s.collector.k = plan.settings.k) (hcomes : r.ComesTo plan s first here s₁)
    (hround : Iteration.round plan first here s₁ = .ok (next, false) s₂)
    (hagain : Iteration.round plan first next s₂ = .ok (last, stop) s₃)
    (hlabels : plan.measure.LabelsAlike partitions here.centroids next.centroids ∨
      plan.measure.RowPerPoint ∧ last.labels = next.labels) :
    (last.centroids = next.centroids ∧ last.labels = next.labels) ∧
    (∀ mid later more s₄ s₅, Iteration.Passes plan first last s₃ mid s₄ →
      Iteration.round plan first mid s₄ = .ok (later, more) s₅ →
      later.centroids = next.centroids ∧ later.labels = next.labels) ∧
    (∀ result s', r.step plan s = .ok result s' →
      result.centroids = next.centroids ∧ result.labels = next.labels) ∧
    ∀ t, (∃ l, s.criterion = .remembering plan.settings l) → plan.settings.tolerance = some t →
      t.aboveFloat 0 → (∀ x ∈ next.centroids.entries, x.isFinite) →
      stop = true ∧ last.converged = true ∧
        r.step plan s = Iteration.finish plan last s₃.release ∧
        ∀ result s', r.step plan s = .ok result s' →
          result.rounds = next.epoch + 1 ∧ result.converged = true := by
  have hplan : plan.Serves ⟨plan.settings, plan.measure, partitions⟩ :=
    ⟨rfl, hstateless.matches.follows⟩
  obtain ⟨hhere, hfirst, hle⟩ := hcomes.onCourse hplan hcollector hwidth hover
  obtain ⟨hnext, hforms⟩ := (Iteration.round_forms hplan first hhere).of_ok hround
  obtain ⟨hlast, hforms'⟩ := (Iteration.round_forms hplan first hnext).of_ok hagain
  obtain ⟨hcentroids, hsame⟩ :=
    hforms.again hforms' hhere.shaped hnext.shaped hwidth hlabels
  refine ⟨⟨hcentroids, hsame⟩, fun mid later more s₄ s₅ hpasses hlater => ?_,
    fun result s' hreturns => ?_, fun t hcriterion htolerance habove hfinite => ?_⟩
  · obtain ⟨hc, hl⟩ := Iteration.round_repeats hplan hpasses hlast (hcentroids ▸ hforms') rfl hlater
    exact ⟨hc.trans hcentroids, hl.trans hsame⟩
  · obtain ⟨mid, s₄, end_, s₅, hpasses, hends, hfinish⟩ := (hcomes.round hround).ends hreturns
    obtain ⟨hc, hl⟩ := Iteration.round_repeats hplan hpasses hnext hforms' hcentroids hends
    obtain ⟨rfl, -⟩ := (Iteration.finish_result plan s₅.release end_).of_ok hfinish
    exact ⟨hc.trans hcentroids, hl.trans hsame⟩
  · obtain ⟨l, hl⟩ := hcomes.remembers hplan hcollector hwidth hover hcriterion
    have hcounts := (Iteration.round_countsOne first here s₁).of_ok hround
    obtain ⟨hgoesOn, -, l', hl'⟩ := hcounts.stops_iff hl
    have hcounts' := (Iteration.round_countsOne first next s₂).of_ok hagain
    obtain ⟨hstop, hconverged, -⟩ := hcounts'.stops_iff hl'
    have hsettled : plan.settings.Settled next.centroids last.centroids := by
      rw [hcentroids]
      exact Settings.settled_self hnext.shaped.centroids hwidth htolerance habove hfinite
    obtain rfl := hstop.2 (.inr hsettled)
    have hstep : r.step plan s = Iteration.finish plan last s₃.release := by
      refine (hcomes.round hround).step_eq_finish ?_ hagain
      -- the criterion has left room for one more round
      have hlimit : ¬ (plan.settings.maxRounds : Int) ≤ here.epoch + 1 := fun hlimit =>
        Bool.false_ne_true (hgoesOn.2 (.inl hlimit))
      obtain ⟨l₀, hl₀⟩ := hcriterion
      rw [hl₀, Criterion.horizon_remembering, Option.getD_some, hcounts.epoch_eq]
      omega
    refine ⟨rfl, hconverged.2 hsettled, hstep, fun result s' hreturns => ?_⟩
    rw [hstep] at hreturns
    obtain ⟨rfl, -⟩ := (Iteration.finish_result plan s₃.release last).of_ok hreturns
    exact ⟨hcounts'.epoch_eq, hconverged.2 hsettled⟩

/-! ## Three doubles in two clusters -/

/-- The run that is asked for up to its second round. -/
def Request.twoRounds [Scalar α] (plan : Plan α) (r : Request α) : Step α
    (Iteration.Standing α × (Iteration.Standing α × Bool) × (Iteration.Standing α × Bool)) := do
  let here ← r.opening plan
  let out ← Iteration.round plan here.epoch here
  let out' ← Iteration.round plan here.epoch out.1
  return (here, out, out')

theorem Request.comesTo_of_twoRounds [Scalar α] {plan : Plan α} {r : Request α} {s s₃ : Session α}
    {here : Iteration.Standing α} {out out' : Iteration.Standing α × Bool}
    (h : r.twoRounds plan s = .ok (here, out, out') s₃) : ∃ s₁ s₂,
      r.ComesTo plan s here.epoch here s₁ ∧
      Iteration.round plan here.epoch here s₁ = .ok out s₂ ∧
      Iteration.round plan here.epoch out.1 s₂ = .ok out' s₃ := by
  obtain ⟨opened, s₁, hopening, h⟩ := Step.bind_eq_ok.1 h
  obtain ⟨_, s₂, hround, h⟩ := Step.bind_eq_ok.1 h
  obtain ⟨_, _, hagain, h⟩ := Step.bind_eq_ok.1 h
  cases h
  exact ⟨s₁, s₂, ⟨here, s₁, hopening, rfl, .here⟩, hround, hagain⟩

namespace Sample

/-- A matrix of doubles in one column. -/
def doubles (xs : List Float) : Tensor Float := .ofRowLists [1] (xs.map ([·]))

/-- A plan of the sample over doubles, with one worker and no checkpoint. -/
def doublePlan : Plan Float where
  settings
  execution := { partitions := .int 2, workers := .int 1, chunk := none, timeout := .null }
  measure := .euclidean "EuclideanDistanceMeasure"
  period := none

/-- A controller that nobody has asked for anything. -/
def doubleSession : Session Float :=
  .start doublePlan (.ofSettings settings) (.empty "run.ckpt") (.stepping 0)

/-- Two points that are near each other, in one partition, and one that is not. -/
def apart : Request Float := .run [doubles [0, 1], doubles [9]] (doubles [0, 4])

theorem apart_over : apart.Over doublePlan doubleSession
    ⟨doublePlan.settings, doublePlan.measure, [doubles [0, 1], doubles [9]]⟩ 1 :=
  .run (by rfl) (by rfl)

/-- The labels of its first two rounds, and the centroids of the first. -/
theorem apart_labels : (apart.twoRounds doublePlan).Ends doubleSession
    (fun x _ => x.2.1.1.epoch = 1 ∧ x.2.1.2 = false ∧ x.2.1.1.labels = [0, 0, 1] ∧
      x.2.2.1.labels = [0, 0, 1] ∧ ∀ c ∈ x.2.1.1.centroids.entries, c.isFinite = true)
    (fun _ _ => False) := by decide +kernel

end Sample

/-- In the second round the labels are those of the first, and the run returns. -/
theorem repeated_labels_fix_the_centroids_sample : ∃ result s,
    Sample.apart.step Sample.doublePlan Sample.doubleSession = .ok result s ∧
      result.rounds = 2 ∧ result.converged = true ∧ result.labels = [0, 0, 1] := by
  obtain ⟨⟨here, ⟨next, goesOn⟩, ⟨last, stop⟩⟩, s, hresult, hepoch, hgoesOn, hnext, hlast, hfinite⟩ :=
    Sample.apart_labels.exists_ok fun _ _ h => h
  dsimp only at hepoch hgoesOn hnext hlast hfinite
  subst hgoesOn
  obtain ⟨s₁, s₂, hcomes, hround, hagain⟩ := Request.comesTo_of_twoRounds hresult
  obtain ⟨-, -, hfound, hstops⟩ := repeated_labels_fix_the_centroids
    (Measure.stateless_euclidean _) Nat.one_pos Sample.apart_over rfl hcomes hround hagain
    (.inr ⟨(Measure.rowByRow_euclidean _).answers.rowPerPoint, hlast.trans hnext.symm⟩)
  obtain ⟨-, -, hstep, hreturned⟩ := hstops (.int 1)
    ⟨none, (Criterion.remembering_none Sample.settings).symm⟩ rfl (by decide +kernel) hfinite
  -- there is no checkpoint to remove, so the finish returns
  obtain ⟨result, s', hfinish⟩ : ∃ result s',
      Iteration.finish Sample.doublePlan last s.release = .ok result s' := ⟨_, _, rfl⟩
  rw [hfinish] at hstep
  obtain ⟨hrounds, hconverged⟩ := hreturned result s' hstep
  refine ⟨result, s', hstep, ?_, hconverged, (hfound result s' hstep).2.trans hnext⟩
  rw [hrounds, hepoch]
  rfl

end ClusterRounds
