/-
  ClusterRounds.Proofs.Fitting

  How fitting fails. Of points that are a matrix, an estimator with a plan that is able to
  carry a run out makes a model, unless there are fewer points than centroids or more
  partitions are asked for than a list can hold, the place of the checkpoint refuses, or
  the points have no coordinates. A run that is taken up fails in the first and the third
  of these ways, by what its checkpoint lacks, or because the checkpoint is not the record
  of a run.
-/

import ClusterRounds.Estimator
import ClusterRounds.Proofs.Splitting
import ClusterRounds.Proofs.Unfailing

namespace ClusterRounds

variable {α : Type} {points : Tensor α} {n width : Nat}

/-! ## What a run works on -/

/-- Rows that are there are all picked. -/
theorem Tensor.shape_pick (hpoints : points.shape = [n, width]) {places : List Nat}
    (hplaces : ∀ i ∈ places, i < n) : (points.pick places).shape = [places.length, width] := by
  have hlength : points.rowLists.length = n := length_rowLists hpoints
  have hall : (places.filterMap fun i => points.rowLists.toArray[i]?).length = places.length := by
    rw [List.filterMap_length_eq_length]
    intro i hi
    rw [List.getElem?_toArray, List.getElem?_eq_getElem (hlength ▸ hplaces i hi), Option.isSome_some]
  unfold pick
  rw [innerShape_of_shape hpoints, shape_ofRowLists, hall]
  intro row hrow
  obtain ⟨i, -, hi⟩ := List.mem_filterMap.1 hrow
  rw [List.getElem?_toArray] at hi
  exact length_of_mem_rowLists hpoints (List.mem_of_getElem? hi)

theorem Quantity.ltInt_int (n i : Int) : (int n).ltInt i = decide (n < i) := by
  unfold ltInt compareInt
  rw [Bool.eq_iff_iff, beq_iff_eq, Option.some.injEq, Int.compare_eq_lt, decide_eq_true_iff]

namespace Seeding

/-- What is answered to a number of points: the first of the order of the seed, unless the number is
    out of range or the seed is no integer. -/
theorem select_int (hpoints : points.shape = [n, width]) (k : Int) (seed : Value) :
    select points (.int k) seed =
      if k < 1 then .error (.configuration (.sampleSize (.int k)))
      else if n < k then .error (.configuration (.sampleTooLarge (.int k) n))
      else match seed with
        | .int s => .ok (points.pick ((order s n).take k.toNat))
        | _ => .error (.configuration (.seedNotInteger seed)) := by
  have hbelow : (Value.int k).isBelow 1 = .ok (decide (k < 1)) := by
    simp [Value.isBelow, Value.quantity?, Quantity.ltInt_int]
  have hexceeds : select.exceeds (.int k) n = .ok (decide (n < k)) := by
    show Except.ok (some (compare k (n : Int)) == some .gt) = _
    rw [Except.ok.injEq, Bool.eq_iff_iff, beq_iff_eq, Option.some.injEq, Int.compare_eq_gt,
      decide_eq_true_iff]
  unfold select
  simp only [hpoints, hbelow, hexceeds, ofOperands_ok, bind, Except.bind, decide_eq_true_eq]
  split
  · rfl
  · split
    · rfl
    · cases seed <;> rfl

/-- The order of a seed is one of all points. -/
theorem order_perm (seed : Int) (n : Nat) : (order seed n).Perm (List.range n) :=
  Random.order_perm _ _ n

theorem length_order (seed : Int) (n : Nat) : (order seed n).length = n := by
  rw [(order_perm seed n).length_eq, List.length_range]

theorem lt_of_mem_order {seed : Int} {i : Nat} (h : i ∈ order seed n) : i < n :=
  List.mem_range.1 ((order_perm seed n).mem_iff.1 h)

/-- The initial centroids are as many as were asked for, unless there are fewer points. -/
theorem select_ends (hpoints : points.shape = [n, width]) {k : Nat} (hk : 0 < k)
    (seed : Int) :
    Outcome.Ends (select points (.int k) (.int seed)) (fun t => t.shape = [k, width])
      Failure.IsConfiguration := by
  rw [select_int hpoints, if_neg (by omega)]
  split
  · exact ⟨_, rfl⟩
  · rename_i henough
    have hlength : ((order seed n).take k).length = k := by
      rw [List.length_take, length_order]
      omega
    have hplaces : ∀ i ∈ (order seed n).take k, i < n := fun i hi =>
      lt_of_mem_order (List.mem_of_mem_take hi)
    show (points.pick ((order seed n).take k)).shape = _
    rw [Tensor.shape_pick hpoints hplaces, hlength]

end Seeding

namespace Split

/-- So many partitions find no room in any list. -/
def TooMany (n : Int) : Prop := Shape.greatestLength < partSize * n.toNat

theorem partitions_ends (hpoints : points.shape = [n, width]) (count : Int) :
    Outcome.Ends (partitions points (.int count) none) (fun parts => IsSplit width parts points)
      (fun f => TooMany count ∧ ∃ fault, f = .operand fault) := by
  unfold partitions
  simp only [Tensor.rowCount_of_shape hpoints, Quantity.truncate, ofOperands_ok, Outcome.ends_bind,
    Outcome.ends_ok]
  split
  · rename_i hmost
    refine ⟨?_, _, rfl⟩
    have hrest : 0 ≤ (n : Int) % count := Int.natCast_nonneg (n % count.natAbs)
    simp only [TooMany, Shape.greatestLength, partSize, mostParts] at hmost ⊢
    omega
  · split
    · rename_i hroom
      exact ⟨hroom, _, rfl⟩
    · exact isSplit_parts hpoints (sum_evenSizes _ _)

end Split

namespace Estimator

variable [Scalar α] {e : Estimator α} {count : Int}

omit [Scalar α] in
/-- What a run over a matrix works on. -/
theorem prepare_ends (hpoints : points.shape = [n, width])
    (hcount : e.plan.execution.partitions = .int count) (hchunk : e.plan.execution.chunk = none) :
    Outcome.Ends (e.prepare points none)
      (fun made => IsSplit width made.1 points ∧ made.2.shape = [e.plan.settings.k, width])
      (fun f => f.IsConfiguration ∨ Split.TooMany count ∧ ∃ fault, f = .operand fault) := by
  unfold prepare
  dsimp only
  rw [if_neg (by simp [Tensor.rank_of_shape hpoints]), hcount, hchunk]
  rw [Outcome.ends_bind]
  refine (Seeding.select_ends hpoints e.plan.settings.k_pos e.plan.settings.seed).mono
    (fun initial hinitial => ?_) fun f hf => .inl hf
  rw [Outcome.ends_bind]
  exact (Split.partitions_ends hpoints count).mono (fun parts hparts => ⟨hparts, hinitial⟩)
    fun f hf => .inr hf

omit [Scalar α] in
/-- A session that is carried out ends as its run does. -/
theorem carryOut_ends {Q : RunResult α → Prop} {E : Failure → Prop}
    {run : Step α (RunResult α)} (h : run.Ends e.session (fun r _ => Q r) fun f _ => E f)
    (tag : Option (Nat × Nat × Nat × Nat)) :
    Outcome.Ends (e.carryOut tag run).answer
      (fun model => ∃ r, Q r ∧ model = ⟨r.centroids, e.plan.measure, some r⟩) E := by
  unfold carryOut
  cases hrun : run e.session with
  | ok r s => exact ⟨r, h.of_ok hrun, rfl⟩
  | error f s => exact h.of_error hrun

/-- A fit of a matrix has a model, or fails in one of four ways. -/
theorem fit_ends (hplan : e.plan.Able e.plan.settings) (hm : e.plan.measure.AnswersAt width)
    (hpoints : points.shape = [n, width])
    (hcount : e.plan.execution.partitions = .int count) (hchunk : e.plan.execution.chunk = none) :
    Outcome.Ends (e.fit points none).answer
      (fun model => model.centroids.shape = [e.plan.settings.k, width] ∧ ∃ r, model.result = some r)
      (fun f => f.IsConfiguration ∨ (Split.TooMany count ∧ ∃ fault, f = .operand fault) ∨
        e.slot.Stops width f) := by
  have hprepare := prepare_ends hpoints hcount hchunk
  unfold fit
  cases hmade : e.prepare points none with
  | error f =>
    rcases hprepare.of_error hmade with hf | hf
    · exact .inl hf
    · exact .inr (.inl hf)
  | ok made =>
    obtain ⟨hsplit, hinitial⟩ := hprepare.of_ok hmade
    have hshaped : Task.Shaped ⟨e.plan.settings, e.plan.measure, made.1⟩ width made.2 :=
      ⟨hinitial, hsplit.shape⟩
    have hrun := Iteration.run_stops (s := e.session) ⟨e.plan.settings, e.plan.measure, made.1⟩ hplan
      hm (Iteration.checkInputs_of_shaped hsplit.ne_nil hshaped) hinitial rfl
      ⟨none, (Criterion.remembering_none e.plan.settings).symm⟩
    refine (carryOut_ends hrun _).mono (fun model hmodel => ?_) fun f hf => .inr (.inr hf)
    obtain ⟨r, hr, rfl⟩ := hmodel
    exact ⟨hr, r, rfl⟩

end Estimator

/-! ## Runs that are taken up -/

/-- The snapshot is the record of where a run under the settings stands, whose points have
    coordinates. -/
def Snapshot.IsRecord (z : Snapshot α) (settings : Settings) : Prop :=
  ∃ (task : Task α) (mark : Mark α) (width : Nat), task.settings = settings ∧ z.Records task mark ∧
    task.Shaped width mark.centroids ∧ 0 < width ∧ 0 ≤ mark.epoch ∧ task.points ≠ []

/-- There lies a snapshot that is no such record. -/
def Slot.HoldsOther (slot : Slot α) (settings : Settings) : Prop :=
  ∃ z, slot.held = .snapshot z ∧ ¬ z.IsRecord settings

/-- Whatever a run over accepted inputs with coordinates saves is a record. -/
theorem Iteration.Reached.isRecord [Scalar α] {settings : Settings} {partitions : List (Tensor α)}
    {initial : Tensor α} {plan : Plan α} {here : Standing α} {s : Session α} {z : Snapshot α}
    (h : Reached settings partitions initial plan here s) (hsaves : Saves plan here s z)
    (haccepted : checkInputs settings partitions initial = .ok ())
    (hshape : initial.shape = [settings.k, width]) (hwidth : 0 < width)
    (hsame : settings.same settings) : z.IsRecord settings := by
  obtain ⟨task, rfl, rfl⟩ : ∃ task : Task α, task.settings = settings ∧ task.points = partitions :=
    ⟨⟨settings, .euclidean "EuclideanDistanceMeasure", partitions⟩, rfl, rfl⟩
  obtain ⟨hplan, hsteady⟩ := h.steady haccepted hshape hwidth hsame
  exact ⟨task, here.mark s, width, rfl, hsaves.records hplan.settings_eq hsteady, hsteady.shaped,
    hwidth, hsteady.epoch_nonneg, (shaped_start haccepted hshape).1⟩

section TakingUp

variable [Scalar α] {plan : Plan α} {s : Session α}

omit [Scalar α] in
/-- Where there is no snapshot, the checkpoint is at fault or the place is. -/
theorem Slot.load_of_no_snapshot {slot : Slot α} (h : ∀ z, slot.held ≠ .snapshot z) :
    ∃ f, slot.load = .error f ∧ ((∃ fault, f = .recovery fault) ∨ slot.Refuses f) := by
  unfold load retrieve
  cases hheld : slot.held with
  | snapshot z => exact absurd hheld (h z)
  | nothing | unreadable | directory | foreign => exact ⟨_, rfl, .inl ⟨_, rfl⟩⟩
  | outOfReach fault => exact ⟨_, rfl, .inr (.outOfReach hheld)⟩

/-- A run that is taken up from the place of its checkpoint comes to its end, or it is told what is
    wrong with the settings or the checkpoint, or the place fails, or there lies something else than
    the record of a run. -/
theorem Iteration.resume_stops (hplan : plan.Able plan.settings) (hperiod : plan.period.isSome)
    (hk : s.collector.k = plan.settings.k)
    (hcriterion : ∃ last, s.criterion = .remembering plan.settings last) :
    (resume plan none).Ends s
      (fun r _ => s.slot.HoldsOther plan.settings ∨ ∃ w, r.centroids.shape = [plan.settings.k, w])
      (fun f _ => s.slot.HoldsOther plan.settings ∨ f.IsConfiguration ∨
        (∃ fault, f = .recovery fault) ∨ s.slot.Refuses f) := by
  by_cases hother : s.slot.HoldsOther plan.settings
  · exact Step.ends_of_forall (fun _ _ => .inl hother) fun _ _ => .inl hother
  have hsnapshot : snapshotFor plan none = (do Step.ofOutcome (← get).slot.load) := by
    simp only [snapshotFor, Option.isNone_eq_false_iff.2 hperiod, Bool.false_eq_true, if_false]
  by_cases hheld : ∃ z, s.slot.held = .snapshot z
  · obtain ⟨z, hheld⟩ := hheld
    have hrecord : z.IsRecord plan.settings := by_contra fun h => hother ⟨z, hheld, h⟩
    obtain ⟨task, mark, width, hsettings, hz, hshape, hwidth, hepoch, hpoints⟩ := hrecord
    rw [← hsettings] at hplan hk hcriterion ⊢
    by_cases hsame : task.settings.same task.settings
    · refine (resume_fails_at_place hplan (.inr ⟨rfl, hperiod, hheld⟩) hsame hz hshape hwidth hepoch
        hpoints hk hcriterion).mono (fun r _ hr => .inr ⟨width, hr⟩) fun f _ hf => ?_
      exact .inr (.inr (.inr hf))
    · -- settings that do not equal themselves are taken for others
      have hload := hz.load hshape hepoch hpoints hheld
      have hother : (!z.settings.same plan.settings) = true := by
        rw [hz.settings_eq, hplan.settings_eq, Bool.not_eq_true']
        exact Bool.eq_false_iff.2 hsame
      simp only [resume, hsnapshot, Step.ends_bind, Step.ends_get, hload, Step.ends_ofOutcome_ok, hother,
        if_true, Step.ends_throw]
      exact .inr (.inl ⟨_, rfl⟩)
  · obtain ⟨f, hload, hf⟩ := Slot.load_of_no_snapshot fun z hz => hheld ⟨z, hz⟩
    simp only [resume, hsnapshot, Step.ends_bind, Step.ends_get, hload, Step.ends_ofOutcome_error]
    exact .inr (.inr hf)

/-- So it is with the estimator whose run it is. -/
theorem Estimator.resume_ends {e : Estimator α} (hplan : e.plan.Able e.plan.settings) :
    Outcome.Ends e.resume.answer
      (fun model => (e.slot.HoldsOther e.plan.settings ∨
        ∃ w, model.centroids.shape = [e.plan.settings.k, w]) ∧ ∃ r, model.result = some r)
      (fun f => e.slot.HoldsOther e.plan.settings ∨ f.IsConfiguration ∨
        (∃ fault, f = .recovery fault) ∨ e.slot.Refuses f) := by
  unfold resume
  split
  · exact .inr (.inl ⟨_, rfl⟩)
  · rename_i hperiod
    have hrun := Iteration.resume_stops (s := e.session) hplan
      (Option.isSome_iff_ne_none.2 fun h => hperiod (by rw [h, Option.isNone_none])) rfl
      ⟨none, (Criterion.remembering_none e.plan.settings).symm⟩
    refine (carryOut_ends hrun none).mono (fun model hmodel => ?_) fun f hf => hf
    obtain ⟨r, hr, rfl⟩ := hmodel
    exact ⟨hr, r, rfl⟩

end TakingUp

end ClusterRounds
