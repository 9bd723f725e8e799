/-
  ClusterRounds.Proofs.Unfailing

  Runs that cannot fail. A controller is `Able` if its criterion is that of the settings,
  no round is cut off, nothing stands in the way of the checkpoint, and its measure answers,
  with whatever numbers. Between two rounds of such a run the session is `Afloat`: the
  operators stand before the boundary, the barrier is closed, and the centroids have kept
  their shape. Whatever the coordinates are, only the place of the checkpoint can stop such
  a session; if that is usable, the session is `Steady`, gets through its round and is
  steady afterwards. So no run over accepted inputs fails, nor does one that takes up a
  snapshot which another one saved.
-/

import ClusterRounds.Proofs.Comparing
import ClusterRounds.Proofs.Partials
import ClusterRounds.Proofs.Resumption
import ClusterRounds.Proofs.Storage

namespace ClusterRounds

variable {α : Type}

/-! ## Settings that equal themselves -/

/-- Every double is equal to itself but the undefined one. -/
theorem Quantity.compareFloat_self {x : Float} (h : x.isNaN = false) :
    compareFloat x (.float x) = some .eq := by
  have hcompare : x.toModel.unpack.compare x.toModel.unpack = some .eq :=
    (Number.compare_unpacked h h).trans (congrArg some (compare_eq_iff_eq.2 rfl))
  have hlt : ¬ x < x := by
    intro hlt
    have hlt : (x.toModel.unpack.compare x.toModel.unpack == some .lt) = true :=
      of_decide_eq_true hlt
    rw [hcompare] at hlt
    cases hlt
  have heq : (x == x) = true := by
    show (x.toModel.unpack.compare x.toModel.unpack == some .eq) = true
    rw [hcompare]
    rfl
  simp [compareFloat, hlt, heq]

theorem Quantity.equal_self {q : Quantity} (h : ∀ x, q = .float x → x.isNaN = false) :
    q.equal q := by
  cases q with
  | flag b => simp [equal, compareInt]
  | int i => simp [equal, compareInt]
  | float x => simp [equal, compareFloat_self (h x rfl)]

/-- Settings ask for the same clustering as themselves, unless their tolerance is the undefined
    number; the column is a text as a rule, and every text is equal to itself. -/
theorem Settings.same_self {settings : Settings}
    (htolerance : ∀ x, settings.tolerance = some (.float x) → x.isNaN = false)
    (hcolumn : settings.featuresColumn.equal settings.featuresColumn) :
    settings.same settings := by
  have hsame : Settings.sameTolerance settings.tolerance settings.tolerance = true := by
    cases ht : settings.tolerance with
    | none => rfl
    | some q => exact Quantity.equal_self fun x hx => htolerance x (by rw [ht, hx])
  simp [same, hcolumn, hsame]

/-! ## Controllers that can carry a run out -/

/-- The plan is one for the settings; no time is set, the number of workers can be told, and the
    measure answers. -/
structure Plan.Able (plan : Plan α) (settings : Settings) : Prop where
  settings_eq : plan.settings = settings
  answers : plan.measure.Answers
  unlimited : plan.execution.timeout = .null
  workers : ∃ n, plan.execution.workers.truncate = .ok n

/-- A controller for the settings, used before or not, with their own criterion. Nothing stands in
    the way of its checkpoint. -/
structure Able (settings : Settings) (plan : Plan α) (s : Session α) : Prop where
  plan : plan.Able settings
  criterion : ∃ last, s.criterion = .remembering settings last
  collector : s.collector.k = settings.k
  slot : s.slot.Usable

theorem Plan.Able.effectiveWorkers {plan : Plan α} {settings : Settings} (h : plan.Able settings) :
    ∃ n, plan.execution.effectiveWorkers = .ok n := by
  obtain ⟨n, hn⟩ := h.workers
  exact ⟨(max 1 (min n Execution.processors)).toNat, by
    rw [Execution.effectiveWorkers, hn]
    rfl⟩

/-! ## One round -/

/-- The mark at which a run stands. -/
def Iteration.Standing.mark (here : Standing α) (s : Session α) : Mark α :=
  ⟨here.epoch, here.centroids, s.inertia⟩

/-- Behind a round the run stands at the mark after it. -/
theorem Iteration.Standing.After.mark_eq {here : Standing α} {mark : Mark α} {t : Turn α}
    {s : Session α} (h : here.After mark t) (hs : s.inertia = (mark.after t).inertia) :
    here.mark s = mark.after t := by
  rw [Standing.mark, h.epoch_eq, h.centroids_eq, hs]
  rfl

section Rounds

variable [Scalar α] {plan : Plan α} {task : Task α} {mark : Mark α} {width : Nat}
  {here : Iteration.Standing α} {s : Session α}

/-- The criterion of the settings answers if the change of the centroids can be told. -/
theorem Criterion.exists_ask {settings : Settings} {previous next : Tensor α} {moved : α}
    (h : Quality.shift previous next = .ok moved) (last : Option α) (round : Int) :
    ∃ stop, ((remembering settings last).ask round next (some previous)).1 = .ok stop := by
  rw [ask_remembering]
  cases settings.tolerance with
  | none => exact ⟨_, rfl⟩
  | some t =>
    rw [h]
    exact ⟨_, rfl⟩

namespace Iteration

/-- No partition fails at the boundary. -/
theorem contribution_sound (hm : plan.measure.AnswersAt width)
    (hshape : task.Shaped width mark.centroids) {p : Tensor α}
    (hp : p ∈ task.points) (call : Nat) : ∃ o,
      contribution plan.measure task.settings.k mark.centroids call p = .ok o ∧
      o.sums.Sound task.settings.k width := by
  obtain ⟨n, w, hpoints, hsuits⟩ := hshape.points p hp
  exact exists_contribution hm task.settings.k_pos hpoints hshape.centroids hsuits call

/-- Nor does anything that comes after their outputs, if there are coordinates; if not, it cannot be
    told how far the centroids have moved. -/
theorem Brought.width_of_turnFrom {outputs : List (PartitionOutput α)}
    (h : Brought plan task mark.centroids outputs) (hm : plan.measure.AnswersAt width)
    (hshape : task.Shaped width mark.centroids) {last : Option α} {e : Failure}
    (hfails : task.turnFrom (.remembering task.settings last) mark outputs = .error e) :
    width = 0 ∧ e = .operand .noElements := by
  have hsound : ∀ o ∈ outputs, o.sums.Sound task.settings.k width := by
    intro o ho
    obtain ⟨p, hp, call, hcall⟩ := h.of_mem ho
    obtain ⟨o', ho', hsound⟩ := contribution_sound hm hshape hp call
    rw [ho', Except.ok.injEq] at hcall
    rwa [hcall] at hsound
  obtain ⟨next, hnext⟩ := exists_nextCentroids hshape.centroids hsound
  have hnext_shape := (shape_nextCentroids hnext).trans hshape.centroids
  rcases Task.turnFrom_eq_error.1 hfails with hnone | ⟨next', hnext', hafter⟩
  · cases hnext.symm.trans hnone
  cases hnext.symm.trans hnext'
  rcases Nat.eq_zero_or_pos width with rfl | hwidth
  · rw [Quality.shift_of_no_width hshape.centroids hnext_shape] at hafter
    rcases hafter with herror | ⟨_, hok, -⟩
    · cases herror
      exact ⟨rfl, rfl⟩
    · cases hok
  · obtain ⟨moved, hmoved⟩ := Quality.exists_shift task.settings.k_pos hwidth hshape.centroids
      hnext_shape
    obtain ⟨stop, hstop⟩ := Criterion.exists_ask hmoved last (mark.epoch + 1)
    rcases hafter with herror | ⟨_, _, herror⟩
    · rw [hmoved] at herror
      cases herror
    · cases hstop.symm.trans herror

end Iteration

/-! ## Runs that only the place of the checkpoint can stop -/

/-- What can stop a run: the place of its checkpoint, or that there are no coordinates. -/
def Slot.Stops (slot : Slot α) (width : Nat) (e : Failure) : Prop :=
  slot.Refuses e ∨ width = 0 ∧ e = .operand .noElements

omit [Scalar α] in
theorem Slot.Stops.refuses {slot : Slot α} {e : Failure} (h : slot.Stops width e)
    (hwidth : 0 < width) : slot.Refuses e :=
  h.resolve_right fun h => absurd h.1 (Nat.ne_of_gt hwidth)

/-- The session is between two rounds of a run that only the place of its checkpoint can stop. -/
structure Afloat (task : Task α) (width : Nat) (slot : Slot α) (here : Iteration.Standing α)
    (s : Session α) : Prop where
  epoch_nonneg : 0 ≤ here.epoch
  shaped : task.Shaped width here.centroids
  poised : Poised task (here.mark s) here.handedOut s
  criterion : ∃ last, s.criterion = .remembering task.settings last
  slot : slot.Later s.slot

namespace Iteration

variable {slot : Slot α}

omit [Scalar α] in
/-- Before a round only a save can fail. -/
theorem prepare_afloat (hplan : plan.settings = task.settings) (h : Afloat task width slot here s) :
    (prepare plan here).Ends s
      (fun _ s' => Poised task (here.mark s) true s' ∧ slot.Later s'.slot ∧
        s'.criterion = s.criterion)
      (fun e _ => slot.Refuses e) := by
  have hshape : task.Shaped width (here.mark s).centroids := h.shaped
  have hpoised := h.poised
  unfold prepare
  cases hhanded : here.handedOut with
  | true =>
    rw [hhanded] at hpoised
    exact ⟨hpoised, h.slot, rfl⟩
  | false =>
    rw [hhanded] at hpoised
    simp only [Bool.not_false, if_true, Step.ends_bind]
    refine (broadcast_ends hpoised).mono (fun _ s₁ hs₁ => ?_) fun _ _ h' => h'.elim
    obtain ⟨hposted, assigners, rfl⟩ := hs₁
    have htake := takeSnapshot_ends hplan hshape hposted
    refine (checkpoint_cases plan here.epoch here.centroids _).mono (fun _ s₂ hs₂ => ?_)
      fun e s₂ hs₂ => ?_
    · cases hs₂ with
      | skipped => exact ⟨hposted, h.slot, rfl⟩
      | @saved z t slot' _ taken save =>
        obtain ⟨-, hpoised', assigners', rfl⟩ := htake.of_ok taken
        exact ⟨⟨hpoised'.lineup, hpoised'.barrier, hpoised'.collector, hpoised'.inertia⟩,
          (Slot.Later.save h.slot save).1, rfl⟩
    · rcases hs₂ with htaken | ⟨z, t, slot', htaken, hfails, -⟩
      · exact (htake.of_error htaken).elim
      · obtain ⟨-, -, assigners', rfl⟩ := htake.of_ok htaken
        exact (Slot.Later.save h.slot hfails).2 e rfl

/-- A round comes to its end, or a save fails before it; or there are no coordinates. -/
theorem round_afloat (hplan : plan.Able task.settings) (hm : plan.measure.AnswersAt width)
    (first : Int) (h : Afloat task width slot here s) :
    (round plan first here).Ends s
      (fun out s' => Afloat task width slot out.1 s' ∧ out.1.epoch = here.epoch + 1 ∧
        (out.2 = false → here.epoch + 1 < task.settings.maxRounds))
      (fun e _ => slot.Stops width e) := by
  have hshape : task.Shaped width (here.mark s).centroids := h.shaped
  obtain ⟨last, hlast⟩ := h.criterion
  rw [round_eq_bind, Step.ends_bind]
  refine (prepare_afloat hplan.settings_eq h).mono (fun _ s₁ hs₁ => ?_) fun _ _ h' => .inl h'
  obtain ⟨hposted, hslot, hcriterion⟩ := hs₁
  refine (work_brings hplan.settings_eq hshape first rfl rfl hposted).mono (fun out s' hs' => ?_)
    fun _ s' hs' => ?_
  · obtain ⟨outputs, t, -, hturn, hstop, hafter, hpoised, hsame, -, hasked⟩ := hs'
    rw [hcriterion, hlast] at hturn hasked
    have hmark := hafter.mark_eq hpoised.inertia
    refine ⟨⟨?_, ?_, ?_, ?_, ?_⟩, hafter.epoch_eq, fun hgoesOn => ?_⟩
    · rw [hafter.epoch_eq]
      exact Int.add_nonneg h.epoch_nonneg Int.one_nonneg
    · rw [hafter.centroids_eq]
      exact hshape.turnFrom hturn
    · rw [hmark, hafter.handedOut_eq]
      exact hpoised
    · rw [hasked]
      exact Criterion.exists_remembering_ask _ _ _ _ _
    · rw [hsame.slot_eq]
      exact hslot
    · -- the criterion goes on only below the largest number of rounds
      exact Task.lt_maxRounds_of_turnFrom hturn (hstop ▸ hgoesOn)
  · -- no partition fails, and what comes after the outputs only without coordinates
    rcases hs'.2 hplan.unlimited with ⟨p, hp, call, e, he⟩ | ⟨outputs, hbrought, hfails⟩
    · obtain ⟨o, ho, -⟩ := contribution_sound hm hshape hp call
      rw [ho] at he
      cases he
    · rw [hcriterion, hlast] at hfails
      exact .inr (hbrought.width_of_turnFrom hm hshape hfails)

/-- With enough fuel the rounds come to an end, or are stopped. -/
theorem rounds_afloat (hplan : plan.Able task.settings) (hm : plan.measure.AnswersAt width)
    (first : Int) :
    ∀ (fuel : Nat) {here : Standing α} {s : Session α}, 0 < fuel →
      (task.settings.maxRounds : Int) - here.epoch < fuel → Afloat task width slot here s →
      (rounds plan first fuel here).Ends s (fun last s' => Afloat task width slot last s')
        (fun e _ => slot.Stops width e)
  | 0, _, _, hpos, _, _ => absurd hpos (Nat.lt_irrefl 0)
  | fuel + 1, here, s, _, hfuel, h => by
    simp only [rounds, Step.ends_bind]
    refine (round_afloat hplan hm first h).mono (fun out s' hs' => ?_) fun _ _ h' => h'
    obtain ⟨hafloat, hepoch, hlimit⟩ := hs'
    split
    · exact hafloat
    · rename_i hout
      have hlt := hlimit (Bool.eq_false_iff.2 hout)
      exact rounds_afloat hplan hm first fuel (by omega) (by omega) hafloat

omit [Scalar α] in
/-- Behind the rounds only the removal of the checkpoint can fail. -/
theorem finish_refused (plan : Plan α) (last : Standing α) (hslot : slot.Later s.slot) :
    (finish plan last).Ends s (fun r _ => r.centroids = last.centroids)
      (fun e _ => slot.Refuses e) := by
  rw [finish, Step.ends_bind, clearCheckpoint]
  split
  · simp only [Step.ends_bind, Step.ends_get, Step.ends_set]
    refine Step.ends_ofOutcome_of (fun _ _ => rfl) fun e he => ?_
    exact hslot.refuses_of_delete (Prod.ext he rfl)
  · exact rfl

/-- From mustered operators on, a run comes to its end, or is stopped. -/
theorem iterate_stops (mark : Mark α) {handedOut : Bool} (hplan : plan.Able task.settings)
    (hm : plan.measure.AnswersAt width) (hpoints : task.points ≠ []) (hepoch : 0 ≤ mark.epoch)
    (hshape : task.Shaped width mark.centroids) (h : Mustered task mark handedOut s)
    (hcriterion : ∃ last, s.criterion = .remembering task.settings last) :
    (iterate plan mark.centroids mark.epoch handedOut).Ends s
      (fun r _ => r.centroids.shape = [task.settings.k, width]) (fun e _ => s.slot.Stops width e) := by
  refine ends_iterate ((enter_poises hpoints h).mono (fun _ s₁ hs₁ => ?_) fun _ s₁ hs₁ => ?_)
  · obtain ⟨hpoised, hsame, -, hcriterion₁⟩ := hs₁
    have hafloat : Afloat task width s.slot (.atStart mark.centroids mark.epoch handedOut) s₁ := by
      have hmark : (Standing.atStart mark.centroids mark.epoch handedOut).mark s₁ = mark := by
        rw [Standing.mark, hpoised.inertia]
        rfl
      refine ⟨hepoch, hshape, ?_, by rw [hcriterion₁]; exact hcriterion, ?_⟩
      · rw [hmark]
        exact hpoised
      · rw [hsame.slot_eq]
        exact .refl _
    obtain ⟨last, hlast⟩ := hcriterion
    rw [hlast, Criterion.horizon_remembering, Option.getD_some]
    have hfuel : (task.settings.maxRounds : Int) - mark.epoch
        < (task.settings.maxRounds - mark.epoch.toNat + 1 : Nat) := by omega
    refine (rounds_afloat hplan hm mark.epoch _ (Nat.succ_pos _) hfuel hafloat).mono
      (fun last s₂ hs₂ => ?_) fun _ _ h => h
    refine (finish_refused plan last (s := s₂.release) hs₂.slot).mono (fun r _ hr => ?_)
      fun _ _ h => .inl h
    rw [hr]
    exact hs₂.shaped.centroids
  · obtain ⟨n, hn⟩ := hplan.effectiveWorkers
    exact absurd hn (hs₁.2 n)

/-- A run over accepted inputs comes to its end, or is stopped. -/
theorem run_stops (task : Task α) {initial : Tensor α} (hplan : plan.Able task.settings)
    (hm : plan.measure.AnswersAt width)
    (haccepted : checkInputs task.settings task.points initial = .ok ())
    (hshape : initial.shape = [task.settings.k, width]) (hk : s.collector.k = task.settings.k)
    (hcriterion : ∃ last, s.criterion = .remembering task.settings last) :
    (run plan task.points initial).Ends s
      (fun r _ => r.centroids.shape = [task.settings.k, width]) (fun e _ => s.slot.Stops width e) := by
  obtain ⟨hpoints, hshaped⟩ := shaped_start haccepted hshape
  rw [run_eq_bind, Step.ends_bind]
  refine (start_musters hplan.settings_eq haccepted hk).mono (fun _ s₁ hs₁ => ?_)
    fun _ _ h => h.elim
  obtain ⟨hmustered, hsame, hcriterion₁⟩ := hs₁
  rw [← hsame.slot_eq]
  exact iterate_stops (.start initial) hplan hm hpoints (Int.le_refl 0) hshaped hmustered
    (hcriterion₁ ▸ hcriterion)

/-- The snapshot is the one to take up: it is given, or lies at the place of the checkpoint. -/
def Takes (plan : Plan α) (given : Option (Snapshot α)) (s : Session α) (z : Snapshot α) : Prop :=
  given = some z ∨ given = none ∧ plan.period.isSome ∧ s.slot.held = .snapshot z

/-- A run that takes up a recorded mark, which has coordinates, comes to its end, or the place of its
    checkpoint fails. -/
theorem resume_fails_at_place {z : Snapshot α} {mark : Mark α} {given : Option (Snapshot α)}
    (hplan : plan.Able task.settings) (htakes : Takes plan given s z)
    (hsame : task.settings.same task.settings) (hz : z.Records task mark)
    (hshape : task.Shaped width mark.centroids) (hwidth : 0 < width) (hepoch : 0 ≤ mark.epoch)
    (hpoints : task.points ≠ []) (hk : s.collector.k = task.settings.k)
    (hcriterion : ∃ last, s.criterion = .remembering task.settings last) :
    (resume plan given).Ends s
      (fun r _ => r.centroids.shape = [task.settings.k, width]) (fun e _ => s.slot.Refuses e) := by
  have hgiven : given = some z ∨ given = none ∧ s.slot.held = .snapshot z :=
    htakes.imp_right fun h => ⟨h.1, h.2.2⟩
  rw [resume_eq_bind, Step.ends_bind]
  refine (takeUp_musters hplan.settings_eq hz hshape hwidth hepoch hpoints hk hgiven).mono
    (fun z' s₁ hs₁ => ?_) fun _ s₁ hs₁ => ?_
  · obtain ⟨rfl, hmustered, hsaves, hcriterion₁⟩ := hs₁
    rw [hz.centroids_eq, hz.epoch_eq, ← hsaves.slot_eq]
    exact (iterate_stops mark hplan (hplan.answers.at_width hwidth) hpoints hepoch hshape hmustered
      (hcriterion₁ ▸ hcriterion)).mono (fun _ _ h => h) fun _ _ h => h.refuses hwidth
  · refine absurd hsame (hs₁.2 fun hnone => ?_)
    rcases htakes with rfl | ⟨-, hperiod, -⟩
    · cases hnone
    · exact hperiod

end Iteration

/-! ## Runs that nothing can stop -/

/-- The session is between two rounds of a run that cannot fail. -/
structure Steady (task : Task α) (width : Nat) (here : Iteration.Standing α) (s : Session α) :
    Prop where
  epoch_nonneg : 0 ≤ here.epoch
  shaped : task.Shaped width here.centroids
  ready : Ready task (here.mark s) here.handedOut s
  criterion : ∃ last, s.criterion = .remembering task.settings last

/-- A session whose place is usable stays steady while it is afloat. -/
theorem Afloat.steady {slot : Slot α} (h : Afloat task width slot here s)
    (hslot : slot.Usable) : Steady task width here s :=
  ⟨h.epoch_nonneg, h.shaped, h.poised.ready (hslot.later h.slot), h.criterion⟩

namespace Iteration

/-- A steady session gets through its round and is steady afterwards. -/
theorem round_steady (hplan : plan.Able task.settings) (hwidth : 0 < width) (first : Int)
    (h : Steady task width here s) :
    (round plan first here).Ends s (fun out s' => Steady task width out.1 s') (fun _ _ => False) := by
  have hafloat : Afloat task width s.slot here s :=
    ⟨h.epoch_nonneg, h.shaped, h.ready.poised, h.criterion, .refl _⟩
  exact (round_afloat hplan (hplan.answers.at_width hwidth) first hafloat).mono
    (fun _ _ hs' => hs'.1.steady h.ready.slot)
    fun _ _ he => h.ready.slot.not_refuses (he.refuses hwidth)

theorem enter_steady (mark : Mark α) {handedOut : Bool} (hplan : plan.Able task.settings)
    (hpoints : task.points ≠ []) (hepoch : 0 ≤ mark.epoch)
    (hshape : task.Shaped width mark.centroids) (h : Gathered task mark handedOut s)
    (hcriterion : ∃ last, s.criterion = .remembering task.settings last) :
    (enter plan).Ends s
      (fun _ s' => Steady task width (.atStart mark.centroids mark.epoch handedOut) s')
      (fun _ _ => False) := by
  refine (enter_ends hpoints h).mono (fun _ s' hs' => ?_) fun _ s' hs' => ?_
  · obtain ⟨hready, -, heq⟩ := hs'
    refine ⟨hepoch, hshape, ?_, by rw [heq]; exact hcriterion⟩
    have hmark : (Standing.atStart mark.centroids mark.epoch handedOut).mark s' = mark := by
      rw [Standing.mark, hready.inertia]
      rfl
    rw [hmark]
    exact hready
  · obtain ⟨n, hn⟩ := hplan.effectiveWorkers
    exact hs'.2 n hn

/-- A run over accepted inputs comes to its end. -/
theorem run_returns (task : Task α) {initial : Tensor α} (hable : Able task.settings plan s)
    (haccepted : checkInputs task.settings task.points initial = .ok ())
    (hshape : initial.shape = [task.settings.k, width]) (hwidth : 0 < width) :
    (run plan task.points initial).Ends s (fun _ _ => True) (fun _ _ => False) :=
  (run_stops task hable.plan (hable.plan.answers.at_width hwidth) haccepted hshape hable.collector
    hable.criterion).mono (fun _ _ _ => True.intro)
    fun _ _ he => hable.slot.not_refuses (he.refuses hwidth)

section TakingUp

variable {z : Snapshot α} {given : Option (Snapshot α)} (hable : Able task.settings plan s)
  (htakes : Takes plan given s z) (hsame : task.settings.same task.settings)
  (hz : z.Records task mark) (hshape : task.Shaped width mark.centroids) (hwidth : 0 < width)
  (hepoch : 0 ≤ mark.epoch) (hpoints : task.points ≠ [])

include hable htakes hsame hz hshape hwidth hepoch hpoints

omit [Scalar α] in
theorem takeUp_gathers :
    (takeUp plan given).Ends s
      (fun z' s' => z' = z ∧ Gathered task mark true s' ∧
        ∃ last, s'.criterion = .remembering task.settings last)
      (fun _ _ => False) := by
  have hgiven : given = some z ∨ given = none ∧ s.slot.held = .snapshot z :=
    htakes.imp_right fun h => ⟨h.1, h.2.2⟩
  refine (takeUp_ends hable.plan.settings_eq hz hshape hwidth hepoch hpoints
    ⟨hable.collector, hable.slot⟩ hgiven).mono (fun z' s' hs' => ?_) fun _ s' hs' => ?_
  · obtain ⟨heq, hgathered, -, hcriterion⟩ := hs'
    exact ⟨heq, hgathered, hcriterion ▸ hable.criterion⟩
  · refine hs'.2 (fun hnone => ?_) hsame
    rcases htakes with rfl | ⟨-, hperiod, -⟩
    · cases hnone
    · exact hperiod

/-- A run that takes up a recorded mark comes to its end. -/
theorem resume_returns :
    (resume plan given).Ends s (fun _ _ => True) (fun _ _ => False) :=
  (resume_fails_at_place hable.plan htakes hsame hz hshape hwidth hepoch hpoints hable.collector
    hable.criterion).mono (fun _ _ _ => True.intro) fun _ _ he => hable.slot.not_refuses he

end TakingUp

end Iteration

end Rounds

/-! ## The snapshots of runs that cannot fail -/

namespace Iteration

variable [Scalar α]

/-- The snapshot is saved before the round at hand. -/
def Saves (plan : Plan α) (here : Standing α) (s : Session α) (z : Snapshot α) : Prop :=
  ∃ s', prepare plan here s = .ok () s' ∧ s'.slot.held = .snapshot z ∧ s.slot.saves < s'.slot.saves

/-- Where able controllers can stand between two rounds, and with which session: in a run over the
    inputs, or in one that has taken up a snapshot which was saved in such a place. -/
inductive Reached (settings : Settings) (partitions : List (Tensor α)) (initial : Tensor α) :
    Plan α → Standing α → Session α → Prop
  | run {plan : Plan α} {s s₁ s₂ : Session α} (able : Able settings plan s)
      (start : start plan partitions initial s = .ok () s₁) (enter : enter plan s₁ = .ok () s₂) :
      Reached settings partitions initial plan (.atStart initial 0 false) s₂
  | resumed {plan : Plan α} {here : Standing α} {s : Session α} {z : Snapshot α}
      (before : Reached settings partitions initial plan here s) (saves : Saves plan here s z)
      {plan' : Plan α} {given : Option (Snapshot α)} {s' s₁ s₂ : Session α}
      (able : Able settings plan' s') (takes : Takes plan' given s' z)
      (takeUp : takeUp plan' given s' = .ok z s₁) (enter : enter plan' s₁ = .ok () s₂) :
      Reached settings partitions initial plan' (.atStart z.centroids z.epoch true) s₂
  | round {plan : Plan α} {here next : Standing α} {s s' : Session α} {first : Int}
      (before : Reached settings partitions initial plan here s)
      (round : round plan first here s = .ok (next, false) s') :
      Reached settings partitions initial plan next s'

variable {task : Task α} {plan : Plan α} {here : Standing α} {s : Session α} {z : Snapshot α}
  {width : Nat}

/-- What is saved is the record of where the run stands. -/
theorem Saves.records (h : Saves plan here s z) (hplan : plan.settings = task.settings)
    (hsteady : Steady task width here s) : z.Records task (here.mark s) := by
  obtain ⟨s', hprepare, hheld, hsaves⟩ := h
  have hshape : task.Shaped width (here.mark s).centroids := hsteady.shaped
  obtain ⟨-, hsaved, -⟩ := (prepare_ends hplan hshape rfl rfl hsteady.ready).of_ok hprepare
  rcases hsaved with heq | ⟨z', hz', hheld', -, -⟩
  · -- something was saved
    rw [heq] at hsaves
    exact absurd hsaves (Nat.lt_irrefl _)
  · rw [hheld, Held.snapshot.injEq] at hheld'
    exact hheld' ▸ hz'

/-- Wherever they stand, they are steady. -/
theorem Reached.steady {initial : Tensor α}
    (h : Reached task.settings task.points initial plan here s)
    (haccepted : checkInputs task.settings task.points initial = .ok ())
    (hshape : initial.shape = [task.settings.k, width]) (hwidth : 0 < width)
    (hsame : task.settings.same task.settings) :
    plan.Able task.settings ∧ Steady task width here s := by
  obtain ⟨hpoints, hshaped⟩ := shaped_start haccepted hshape
  induction h with
  | run able start enter =>
    obtain ⟨hgathered, -, hcriterion⟩ := (start_ends able.plan.settings_eq haccepted
      ⟨able.collector, able.slot⟩).of_ok start
    exact ⟨able.plan, (enter_steady (.start initial) able.plan hpoints (Int.le_refl 0) hshaped
      hgathered (hcriterion ▸ able.criterion)).of_ok enter⟩
  | resumed before saves able takes takeUp enter ih =>
    obtain ⟨hplan, hsteady⟩ := ih
    have hz := saves.records hplan.settings_eq hsteady
    obtain ⟨-, hgathered, hcriterion⟩ := (takeUp_gathers able takes hsame hz hsteady.shaped hwidth
      hsteady.epoch_nonneg hpoints).of_ok takeUp
    rw [hz.centroids_eq, hz.epoch_eq]
    exact ⟨able.plan, (enter_steady _ able.plan hpoints hsteady.epoch_nonneg hsteady.shaped
      hgathered hcriterion).of_ok enter⟩
  | round before round ih =>
    obtain ⟨hplan, hsteady⟩ := ih
    exact ⟨hplan, (round_steady hplan hwidth _ hsteady).of_ok round⟩

end Iteration

/-- No run over accepted inputs fails, whatever the coordinates are and whatever numbers the measure
    answers with. Nor does a run that takes up a snapshot which one of them has saved, before any of
    its rounds, and be it a resumed run itself. -/
theorem valid_runs_return [Scalar α] {settings : Settings} {partitions : List (Tensor α)}
    {initial : Tensor α} {width : Nat}
    (haccepted : Iteration.checkInputs settings partitions initial = .ok ())
    (hshape : initial.shape = [settings.k, width]) (hwidth : 0 < width)
    (htolerance : ∀ x, settings.tolerance = some (.float x) → x.isNaN = false)
    (hcolumn : settings.featuresColumn.equal settings.featuresColumn) :
    (∀ plan s, Able settings plan s →
      ∃ r s', Iteration.run plan partitions initial s = .ok r s') ∧
    (∀ plan here s z, Iteration.Reached settings partitions initial plan here s →
      Iteration.Saves plan here s z → ∀ plan' given s', Able settings plan' s' →
        Iteration.Takes plan' given s' z →
        ∃ r s'', Iteration.resume plan' given s' = .ok r s'') := by
  -- the measure of the task plays no part in this
  obtain ⟨task, rfl, rfl⟩ : ∃ task : Task α, task.settings = settings ∧ task.points = partitions :=
    ⟨⟨settings, .euclidean "EuclideanDistanceMeasure", partitions⟩, rfl, rfl⟩
  constructor
  · intro plan s hable
    obtain ⟨r, s', hrun, -⟩ := (Iteration.run_returns task hable haccepted hshape hwidth).exists_ok
      fun _ _ h => h
    exact ⟨r, s', hrun⟩
  · intro plan here s z hreached hsaves plan' given s' hable htakes
    have hsame := Settings.same_self htolerance hcolumn
    obtain ⟨hplan, hsteady⟩ := hreached.steady haccepted hshape hwidth hsame
    have hz := hsaves.records hplan.settings_eq hsteady
    obtain ⟨hpoints, -⟩ := shaped_start haccepted hshape
    obtain ⟨r, s'', hresume, -⟩ := (Iteration.resume_returns hable htakes hsame hz hsteady.shaped
      hwidth hsteady.epoch_nonneg hpoints).exists_ok fun _ _ h => h
    exact ⟨r, s'', hresume⟩

/-! ## A snapshot of a first round -/

theorem Sample.able {m : Measure Rat} (hm : m.Answers) :
    Able settings (attempt m).plan ((attempt m).session place) where
  plan := ⟨rfl, hm, rfl, 1, rfl⟩
  criterion := ⟨none, (Criterion.remembering_none settings).symm⟩
  collector := rfl
  slot := usable_place

/-- The sample returns, and so does the run that takes up the snapshot of its first round. -/
theorem valid_runs_return_sample :
    (∃ r s, (Sample.attempt Sample.task.measure).run Sample.place Sample.task.points
      Sample.initial = .ok r s) ∧
    ∃ here s z, Iteration.Reached Sample.settings Sample.task.points Sample.initial
        (Sample.attempt Sample.task.measure).plan here s ∧
      Iteration.Saves (Sample.attempt Sample.task.measure).plan here s z ∧
      ∃ r s', Iteration.resume (Sample.attempt Sample.task.measure).plan (some z)
        ((Sample.attempt Sample.task.measure).session Sample.place) = .ok r s' := by
  have hable := Sample.able (Measure.rowByRow_euclidean "EuclideanDistanceMeasure").answers
  have hreturns := valid_runs_return Sample.accepted (by rfl) Nat.one_pos
    (fun x hx => nomatch hx) (by rfl)
  refine ⟨hreturns.1 _ _ hable, ?_⟩
  -- the session before the first round, and what is saved of it
  obtain ⟨s, z, hreached, hsaves⟩ : ∃ s z, Iteration.Reached Sample.settings Sample.task.points
      Sample.initial (Sample.attempt Sample.task.measure).plan
      (.atStart Sample.initial 0 false) s ∧
      Iteration.Saves (Sample.attempt Sample.task.measure).plan
        (.atStart Sample.initial 0 false) s z := by
    refine ⟨_, _, .run hable rfl rfl, _, rfl, rfl, ?_⟩
    decide
  exact ⟨_, s, z, hreached, hsaves,
    hreturns.2 _ _ s z hreached hsaves _ (some z) _ hable (.inl rfl)⟩

end ClusterRounds
