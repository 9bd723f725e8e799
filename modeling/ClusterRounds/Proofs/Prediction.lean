/-
  ClusterRounds.Proofs.Prediction

  Labels by two ways. The labels of a fit are made in partitions: each partition asks the
  measure about the points that it holds, and what they bring to the barrier is put together
  in the order of the partitions. A prediction asks the measure once, about all points. For a
  measure that computes row by row both ways label each row by itself, and no way of
  splitting changes the order of the rows; so a fit labels its points as the centroids that
  were handed out in its last round predict them.
-/

import ClusterRounds.Proofs.FixedPoint
import ClusterRounds.Proofs.HandingOut
import ClusterRounds.Proofs.Splitting
import ClusterRounds.Proofs.Unfailing

namespace ClusterRounds

variable {α : Type} [Scalar α]

/-! ## Row by row -/

section Rows

variable {m : Measure α} {row : Tensor α → List α → List α} {k width n w : Nat}
  {points centroids : Tensor α}

/-- The labels are those of the rows of distances, at every call. -/
theorem Measure.RowByRow.nearest_eq (hm : m.RowByRow row) (hpoints : points.shape = [n, w])
    (hcentroids : centroids.shape = [k, width]) (hsuits : n = 0 ∨ w = width) (call : Nat) :
    m.nearest call points centroids
      = .ofOperands (labels (points.rowLists.map (row centroids))) := by
  by_cases hn : n = 0
  · have hrows : points.rowLists = [] := (Tensor.rowLists_eq_nil_iff hpoints).2 hn
    rw [m.nearest_of_no_rows call centroids (by rw [Tensor.rowCount_of_shape hpoints, hn]), hrows]
    rfl
  · have hinner : points.innerShape = centroids.innerShape := by
      rw [Tensor.innerShape_of_shape hpoints, Tensor.innerShape_of_shape hcentroids,
        hsuits.resolve_left hn]
    have hmatrix := (hm call points centroids (Tensor.rank_of_shape hpoints)
      (Tensor.rank_of_shape hcentroids) hinner).1
    unfold nearest
    rw [Tensor.rowCount_of_shape hpoints, hmatrix]
    simp only [bind, Except.bind, ofOperands_ok, if_neg hn]

/-- Labels of lists of rows, one list after the other, are labels of all rows. -/
theorem Measure.labels_append {xs ys : DistanceMatrix α} {ls ls' : List Nat}
    (h : labels xs = .ok ls) (h' : labels ys = .ok ls') : labels (xs ++ ys) = .ok (ls ++ ls') := by
  unfold labels at h h' ⊢
  rw [List.mapM_append, h, h']
  rfl

end Rows

/-! ## Parts and the whole -/

section Parts

variable {plan : Plan α} {task : Task α} {width : Nat} {centroids points : Tensor α}
  {outputs : List (PartitionOutput α)} {row : Tensor α → List α → List α}

/-- The labels that the partitions bring are those of all their rows, in the order of the
    partitions. -/
theorem Iteration.Brought.labels_eq (h : Brought plan task centroids outputs)
    (hm : plan.measure.RowByRow row) (hshape : task.Shaped width centroids) : ∃ labels,
      Measure.labels ((task.points.flatMap Tensor.rowLists).map (row centroids)) = .ok labels ∧
      (outputs.map (·.labels)).flatten = labels.map fun (l : Nat) => (l : Int) := by
  have hpoints := hshape.points
  unfold Brought at h
  generalize task.points = partitions at h hpoints
  induction h with
  | nil => exact ⟨[], rfl, rfl⟩
  | @cons p o partitions outputs ho _ ih =>
    obtain ⟨call, ho⟩ := ho
    obtain ⟨⟨labels, hnearest, hlabels⟩, -⟩ := labels_of_contribution ho
    obtain ⟨n, w, hp, hsuits⟩ := hpoints p List.mem_cons_self
    rw [hm.nearest_eq hp hshape.centroids hsuits, ofOperands_eq_ok] at hnearest
    obtain ⟨rest, hrest, hflat⟩ := ih fun q hq => hpoints q (List.mem_cons_of_mem p hq)
    refine ⟨labels ++ rest, ?_, ?_⟩
    · rw [List.flatMap_cons, List.map_append]
      exact Measure.labels_append hnearest hrest
    · rw [List.map_cons, List.flatten_cons, hlabels, hflat, List.map_append]

omit [Scalar α] in
/-- Parts of points that fit centroids are of points that fit them. -/
theorem IsSplit.suits {size width' : Nat} (h : IsSplit width task.points points)
    (hpoints : points.shape = [size, width]) (hshape : task.Shaped width' centroids) :
    size = 0 ∨ width = width' := by
  by_cases hsize : size = 0
  · exact .inl hsize
  · -- some part has a row, and the row has both widths
    right
    have hrows : points.rowLists ≠ [] := mt (Tensor.rowLists_eq_nil_iff hpoints).1 hsize
    obtain ⟨x, hx⟩ := List.exists_mem_of_ne_nil _ hrows
    have hlength := Tensor.length_of_mem_rowLists hpoints hx
    rw [← h.rows] at hx
    obtain ⟨p, hp, hxp⟩ := List.mem_flatMap.1 hx
    obtain ⟨n, w, hs, hsuits⟩ := hshape.points p hp
    have hn : n ≠ 0 := by
      rintro rfl
      rw [(Tensor.rowLists_eq_nil_iff hs).2 rfl] at hxp
      cases hxp
    have hwidth := Tensor.length_of_mem_rowLists hs hxp
    rw [hlength, hsuits.resolve_left hn] at hwidth
    simpa using hwidth

end Parts

/-! ## Predictions -/

namespace Model

variable {model : Model α} {row : Tensor α → List α → List α} {k width size w : Nat}
  {points : Tensor α} {labels : List Nat}

/-- A prediction labels all rows at once, whatever the measure has been asked before. -/
theorem predict_eq (hm : model.measure.RowByRow row) (hpoints : points.shape = [size, w])
    (hcentroids : model.centroids.shape = [k, width]) (hsuits : size = 0 ∨ w = width)
    (calls : Nat) : (model.predict calls points).1
      = .ofOperands (Measure.labels (points.rowLists.map (row model.centroids))) := by
  have hquery : model.checkQuery points = .ok () := by
    unfold checkQuery
    rw [hpoints]
    dsimp only
    by_cases hsize : size = 0
    · rw [if_neg (not_not.2 hsize)]
      rfl
    · rw [if_pos hsize, Tensor.width_of_shape hcentroids, hsuits.resolve_left hsize]
      exact if_neg (not_not.2 rfl)
  unfold predict
  rw [hquery]
  exact hm.nearest_eq hpoints hcentroids hsuits _

end Model

/-! ## Fits -/

namespace Estimator

variable {e : Estimator α} {points : Tensor α} {given : Option (Tensor α)} {model : Model α}

/-- A fit that answers has carried out a run over what it prepared. -/
theorem exists_of_fit (h : (e.fit points given).answer = .ok model) :
    ∃ parts initial r s, e.prepare points given = .ok (parts, initial) ∧
      Iteration.run e.plan parts initial e.session = .ok r s ∧
      model = ⟨r.centroids, e.plan.measure, some r⟩ := by
  unfold fit at h
  cases hprepare : e.prepare points given with
  | error f =>
    rw [hprepare] at h
    cases h
  | ok prepared =>
    obtain ⟨parts, initial⟩ := prepared
    rw [hprepare] at h
    dsimp only [carryOut] at h
    cases hrun : Iteration.run e.plan parts initial e.session with
    | error f s =>
      rw [hrun] at h
      cases h
    | ok r s =>
      rw [hrun] at h
      cases h
      exact ⟨parts, initial, r, s, rfl, hrun, rfl⟩

/-- The run over what was prepared comes to its last round, and all operators hold the set, and no
    other, before the boundary of this round, which ends at the standing. -/
def LastSet (e : Estimator α) (parts : List (Tensor α)) (initial set : Tensor α)
    (last : Iteration.Standing α) : Prop :=
  ∃ here s₁ s₂ s₃, (Request.run parts initial).ComesTo e.plan e.session 0 here s₁ ∧
    Iteration.prepare e.plan here s₁ = .ok () s₂ ∧ s₂.AllHold [set] ∧
    Iteration.round e.plan 0 here s₁ = .ok (last, true) s₃

end Estimator

namespace Iteration

variable {plan : Plan α} {task : Task α} {width : Nat} {here : Standing α} {s : Session α}

omit [Scalar α] in
/-- Before the boundary of a round all operators hold its centroids. -/
theorem prepare_allHold (hplan : plan.settings = task.settings) (h : OnCourse task width here s) :
    (prepare plan here).Ends s (fun _ s' => s'.AllHold [here.centroids]) (fun _ _ => True) := by
  refine (prepare_poises hplan h).mono (fun _ s' hs' => ?_) fun _ _ h => h
  rw [Session.allHold_iff]
  intro a ha
  obtain ⟨i, hi⟩ := List.mem_iff_getElem?.1 ha
  obtain ⟨p, -, hstands⟩ := hs'.lineup.of_getElem? hi
  exact hstands.pending_eq

end Iteration

namespace Estimator

variable {e : Estimator α} {parts : List (Tensor α)} {initial set set' : Tensor α}
  {last last' : Iteration.Standing α}

omit [Scalar α] in
/-- A run of the estimator is on its course once it is open. -/
theorem onCourse_of_opening {width : Nat} {opened : Iteration.Standing α} {s : Session α}
    (haccepted : Iteration.checkInputs e.plan.settings parts initial = .ok ())
    (hinitial : initial.shape = [e.plan.settings.k, width])
    (hopening : (Request.run parts initial).opening e.plan e.session = .ok opened s) :
    OnCourse ⟨e.plan.settings, e.plan.measure, parts⟩ width opened s ∧ opened.epoch = 0 := by
  have hsettings : e.plan.settings
      = (⟨e.plan.settings, e.plan.measure, parts⟩ : Task α).settings := rfl
  obtain ⟨hopened, hepoch, -⟩ :=
    (Iteration.opening_onCourse_run hsettings rfl haccepted hinitial).of_ok hopening
  exact ⟨hopened, hepoch⟩

/-- A run that returns has a last round, and returns the centroids and the labels of it. -/
theorem exists_lastSet {r : RunResult α} {s : Session α}
    (hrun : Iteration.run e.plan parts initial e.session = .ok r s) :
    Iteration.checkInputs e.plan.settings parts initial = .ok () ∧
      ∃ set last, e.LastSet parts initial set last ∧ r.centroids = last.centroids ∧
        r.labels = last.labels := by
  have haccepted : Iteration.checkInputs e.plan.settings parts initial = .ok () := by
    obtain ⟨_, _, haccepted, -⟩ := Step.bind_eq_ok.1 hrun
    cases hcheck : Iteration.checkInputs e.plan.settings parts initial with
    | ok _ => rfl
    | error f =>
      rw [hcheck] at haccepted
      cases haccepted
  refine ⟨haccepted, ?_⟩
  obtain ⟨_, here, s₁, last, s₃, hcomes, hround, hfinish⟩ :=
    (Request.step_comes e.plan (.run parts initial) e.session).of_ok hrun
  obtain ⟨-, width, hinitial, -⟩ := Iteration.shaped_of_checkInputs e.plan.measure haccepted
  obtain ⟨opened, s₀, hopening, rfl, hpasses⟩ := hcomes
  obtain ⟨hopened, hepoch⟩ := onCourse_of_opening haccepted hinitial hopening
  have hhere := hpasses.onCourse rfl hopened
  rw [hepoch] at hpasses hround
  obtain ⟨_, s₂, hprepare, -⟩ := Step.bind_eq_ok.1 hround
  obtain ⟨rfl, -⟩ := (Iteration.finish_result e.plan s₃.release last).of_ok hfinish
  exact ⟨here.centroids, last, ⟨here, s₁, s₂, s₃, ⟨opened, s₀, hopening, hepoch, hpasses⟩, hprepare,
    (Iteration.prepare_allHold rfl hhere).of_ok hprepare, hround⟩, rfl, rfl⟩

/-- The run stands before its last round with all its points, by the set that is held. -/
theorem LastSet.onCourse (h : e.LastSet parts initial set last)
    (haccepted : Iteration.checkInputs e.plan.settings parts initial = .ok ()) :
    ∃ here s₁ s₂ width, (Request.run parts initial).ComesTo e.plan e.session 0 here s₁ ∧
      OnCourse ⟨e.plan.settings, e.plan.measure, parts⟩ width here s₁ ∧ here.centroids = set ∧
      Iteration.round e.plan 0 here s₁ = .ok (last, true) s₂ := by
  obtain ⟨here, s₁, s₂, s₃, hcomes, hprepare, hheld, hround⟩ := h
  obtain ⟨hparts, width, hinitial, -⟩ := Iteration.shaped_of_checkInputs e.plan.measure haccepted
  have ⟨opened, s₀, hopening, _, hpasses⟩ := hcomes
  obtain ⟨hopened, -⟩ := onCourse_of_opening haccepted hinitial hopening
  have hhere := hpasses.onCourse rfl hopened
  refine ⟨here, s₁, s₃, width, hcomes, hhere, ?_, hround⟩
  -- what the operators hold are the centroids of the round, and there is an operator
  have hcentroids := (Iteration.prepare_allHold rfl hhere).of_ok hprepare
  obtain ⟨p, hp⟩ := List.exists_mem_of_ne_nil _ hparts
  obtain ⟨i, hi⟩ := List.mem_iff_getElem?.1 hp
  obtain ⟨a, ha, -⟩ := ((Iteration.prepare_poises rfl hhere).of_ok hprepare).lineup.stands i p hi
  have hmem := List.mem_of_getElem? ha
  rw [Session.allHold_iff] at hcentroids hheld
  exact List.singleton_inj.1 ((hcentroids a hmem).symm.trans (hheld a hmem))

/-- The partitions of a last round have brought their outputs by this set. -/
theorem LastSet.brought (h : e.LastSet parts initial set last)
    (haccepted : Iteration.checkInputs e.plan.settings parts initial = .ok ()) :
    ∃ width outputs, Task.Shaped ⟨e.plan.settings, e.plan.measure, parts⟩ width set ∧
      Iteration.Brought e.plan ⟨e.plan.settings, e.plan.measure, parts⟩ set outputs ∧
      last.labels = (outputs.map (·.labels)).flatten := by
  obtain ⟨here, s₁, s₂, width, -, hhere, rfl, hround⟩ := h.onCourse haccepted
  obtain ⟨-, outputs, hbrought, -, hlabels, -⟩ :=
    (Iteration.round_onCourse rfl _ hhere).of_ok hround
  exact ⟨width, outputs, hhere.shaped, hbrought, hlabels⟩

/-- There is only one last round. -/
theorem LastSet.unique (h : e.LastSet parts initial set last)
    (h' : e.LastSet parts initial set' last') : last' = last := by
  obtain ⟨here, s₁, s₂, s₃, hcomes, -, -, hround⟩ := h
  obtain ⟨here', s₁', s₂', s₃', hcomes', -, -, hround'⟩ := h'
  obtain ⟨-, rfl, rfl⟩ := hcomes.unique_last hround hcomes' hround'
  rw [hround] at hround'
  cases hround'
  rfl

end Estimator

/-- With a measure that computes row by row, the labels of a fit are those that a prediction makes
    of its points by the centroids that were handed out in the last round: one for each row, which is
    the first of the nearest centroids of this row, however the points were split and whoever has
    worked on them. So if the last round has left the centroids as they were, the model predicts
    the labels of its own fit. And an able estimator does answer with a model. -/
theorem fit_labels_are_predictions {e : Estimator α} {row : Tensor α → List α → List α}
    {points : Tensor α} {given : Option (Tensor α)} {size width : Nat}
    (hm : e.plan.measure.RowByRow row) (hpoints : points.shape = [size, width])
    (hwidth : 0 < width) :
    (∀ model, (e.fit points given).answer = .ok model →
      ∃ parts initial r, e.prepare points given = .ok (parts, initial) ∧ model.result = some r ∧
        (∃ set last, e.LastSet parts initial set last) ∧
        ∀ set last, e.LastSet parts initial set last → ∃ labels : List Nat,
          model.centroids = last.centroids ∧ r.labels = last.labels ∧
          r.labels = labels.map (fun (l : Nat) => (l : Int)) ∧ labels.length = size ∧
          (∀ (i : Nat) x, points.rowLists[i]? = some x →
            ∃ l, labels[i]? = some l ∧ Scalar.argMin (row set x) = .ok l) ∧
          (∀ calls,
            ((⟨set, e.plan.measure, none⟩ : Model α).predict calls points).1 = .ok labels) ∧
          (last.centroids = set → ∀ calls, (model.predict calls points).1 = .ok labels)) ∧
    ∀ parts initial, e.prepare points given = .ok (parts, initial) →
      initial.shape = [e.plan.settings.k, width] → Able e.plan.settings e.plan e.session →
      ∃ model, (e.fit points given).answer = .ok model := by
  constructor
  · intro model hfit
    obtain ⟨parts, initial, r, s, hprepare, hrun, rfl⟩ := Estimator.exists_of_fit hfit
    have hsplit := isSplit_prepare hpoints hprepare
    obtain ⟨haccepted, set₀, last₀, hlast₀, hcentroids, hr⟩ := Estimator.exists_lastSet hrun
    refine ⟨parts, initial, r, hprepare, rfl, ⟨set₀, last₀, hlast₀⟩, fun set last hlast => ?_⟩
    obtain rfl := hlast₀.unique hlast
    obtain ⟨width', outputs, hshape, hbrought, hflat⟩ := hlast.brought haccepted
    obtain ⟨labels, hlabels, hall⟩ := hbrought.labels_eq hm hshape
    have hsuits := hsplit.suits hpoints hshape
    rw [hsplit.rows] at hlabels
    -- every row has its label at its place
    have hrows := mapM_eq_ok.1 hlabels
    rw [List.forall₂_map_left_iff] at hrows
    obtain ⟨hlength, hget⟩ := List.forall₂_iff_get.1 hrows
    have hpredict (model : Model α) (hmeasure : model.measure = e.plan.measure)
        (hset : model.centroids = set) (calls : Nat) :
        (model.predict calls points).1 = .ok labels := by
      rw [Model.predict_eq (hmeasure ▸ hm) hpoints (hset ▸ hshape.centroids) hsuits calls, hset,
        hlabels, ofOperands_ok]
    refine ⟨labels, hcentroids, hr, hr.trans (hflat.trans hall), ?_, fun i x hx => ?_,
      hpredict _ rfl rfl, fun hset => hpredict _ rfl (hcentroids.trans hset)⟩
    · rw [← hlength, Tensor.length_rowLists hpoints]
    · obtain ⟨hi, rfl⟩ := List.getElem?_eq_some_iff.1 hx
      exact ⟨_, List.getElem?_eq_getElem (hlength ▸ hi), hget i hi (hlength ▸ hi)⟩
  · intro parts initial hprepare hinitial hable
    have hsplit := isSplit_prepare hpoints hprepare
    have hshape : Task.Shaped ⟨e.plan.settings, e.plan.measure, parts⟩ width initial :=
      ⟨hinitial, hsplit.shape⟩
    have haccepted := Iteration.checkInputs_of_shaped hsplit.ne_nil hshape
    obtain ⟨r, s, hrun, -⟩ := (Iteration.run_returns ⟨e.plan.settings, e.plan.measure, parts⟩ hable
      haccepted hinitial hwidth).exists_ok fun _ _ h => h
    refine ⟨⟨r.centroids, e.plan.measure, some r⟩, ?_⟩
    unfold Estimator.fit
    rw [hprepare]
    dsimp only [Estimator.carryOut]
    rw [hrun]
    rfl

/-! ## Three points in chunks of two -/

namespace Sample

/-- An estimator that takes the points in chunks of two. -/
def fitting : Estimator Rat where
  plan :=
    { settings
      execution := { partitions := .int 1, workers := .int 1, chunk := some 2, timeout := .null }
      measure := .euclidean "EuclideanDistanceMeasure"
      period := none }
  calls := 0
  slot := place
  clock := .stepping 0

/-- Both rounds of the run of a fit; the second leaves the centroids as they are. -/
theorem fitting_rounds :
    ((Request.run [column [0, 1], column [9]] (column [0, 4])).twoRounds fitting.plan).Ends
      fitting.session
      (fun x _ => x.1.epoch = 0 ∧ x.2.1.2 = false ∧ x.2.2.2 = true ∧
        x.2.2.1.centroids.shape = x.2.1.1.centroids.shape ∧
        x.2.2.1.centroids.entries = x.2.1.1.centroids.entries ∧ x.2.2.1.labels = [0, 0, 1])
      (fun _ _ => False) := by decide +kernel

theorem fitting_able : Able fitting.plan.settings fitting.plan fitting.session where
  plan := ⟨rfl, (Measure.rowByRow_euclidean _).answers, rfl, 1, rfl⟩
  criterion := ⟨none, (Criterion.remembering_none settings).symm⟩
  collector := rfl
  slot := usable_place

end Sample

/-- The sample is fitted in two partitions, and its model predicts the labels of the fit. -/
theorem fit_labels_are_predictions_sample : ∃ model r,
    (Sample.fitting.fit (Sample.column [0, 1, 9]) (some (Sample.column [0, 4]))).answer = .ok model ∧
    model.result = some r ∧ r.labels = [0, 0, 1] ∧
    (model.predict 7 (Sample.column [0, 1, 9])).1 = .ok [0, 0, 1] := by
  obtain ⟨hlabels, hanswers⟩ := @fit_labels_are_predictions Rat _ Sample.fitting _
    (Sample.column [0, 1, 9]) (some (Sample.column [0, 4])) 3 1 (Measure.rowByRow_euclidean _) rfl
    Nat.one_pos
  have hprepared : Sample.fitting.prepare (Sample.column [0, 1, 9]) (some (Sample.column [0, 4]))
      = .ok ([Sample.column [0, 1], Sample.column [9]], Sample.column [0, 4]) := by rfl
  obtain ⟨model, hfit⟩ := hanswers _ _ hprepared rfl Sample.fitting_able
  obtain ⟨parts, initial, r, hprepare, hresult, ⟨set, last, hlast⟩, hall⟩ := hlabels model hfit
  rw [hprepared] at hprepare
  cases hprepare
  -- the last round is the second one
  obtain ⟨⟨here, ⟨next, goesOn⟩, ⟨final, stop⟩⟩, s, htwo, hepoch, rfl, rfl, hshape, hentries,
    hfinal⟩ := Sample.fitting_rounds.exists_ok fun _ _ h => h
  obtain ⟨s₁, s₂, hcomes, hround, hagain⟩ := Request.comesTo_of_twoRounds htwo
  rw [hepoch] at hcomes hround hagain
  obtain ⟨here', s₁', s₃, width, hcomes', -, hset, hround'⟩ := hlast.onCourse (by rfl)
  obtain ⟨-, rfl, rfl⟩ := (hcomes.round hround).unique_last hagain hcomes' hround'
  rw [hagain] at hround'
  cases hround'
  obtain ⟨labels, -, hsame, hlist, -, -, -, hpredict⟩ := hall set last hlast
  have hstays : last.centroids = set := hset ▸ Tensor.ext hshape hentries
  have hexpected : labels = [0, 0, 1] := by
    have hcasts : [0, 0, 1].map (fun (l : Nat) => (l : Int)) = labels.map fun (l : Nat) => (l : Int) :=
      (hsame.trans hfinal).symm.trans hlist
    exact (List.map_injective_iff.2 Int.ofNat_injective hcasts).symm
  refine ⟨model, r, hfit, hresult, hsame.trans hfinal, ?_⟩
  rw [hpredict hstays 7, hexpected]

end ClusterRounds
