/-
  ClusterRounds.Proofs.Lloyd.Refinement

  Clustering over partitions is Lloyd's algorithm. Each round over a split of the points
  makes of the centroids what the reference makes of them over all points at once, and a
  run finds what the reference finds. So neither the number of partitions nor the size of
  chunks makes a difference.
-/

import ClusterRounds.Estimator
import ClusterRounds.Proofs.Lloyd.Round
import ClusterRounds.Proofs.Resumption
import ClusterRounds.Proofs.Splitting

namespace ClusterRounds

/-! ## The rounds of a run -/

namespace Lloyd

variable {task : Task Rat} {row : Tensor Rat → List Rat → List Rat} {width : Nat}

/-- The reference finds what the task finishes with, if it has fuel for the rounds that are left. -/
theorem finishes_run (hm : task.measure.RowByRow row) (hwidth : 0 < width) :
    ∀ (fuel : Nat) {mark : Mark Rat}, task.Shaped width mark.centroids →
      (task.settings.maxRounds : Int) ≤ mark.epoch + fuel + 1 →
      task.Finishes mark
        (run task.settings row width (task.points.flatMap Tensor.rowLists) fuel mark)
  | 0, mark, hshape, hfuel => by
    -- without fuel the largest number of rounds is reached
    have hstop : (turn task.settings row width
        (task.points.flatMap Tensor.rowLists) mark).stop = true := by
      have : (task.settings.maxRounds : Int) ≤ mark.epoch + 1 := by simpa using hfuel
      simp [turn, this]
    exact .last (turn_eq hm hshape hwidth) hstop
  | fuel + 1, mark, hshape, hfuel => by
    have hturn := turn_eq hm hshape hwidth
    unfold run
    dsimp only
    split
    · rename_i hstop
      exact .last hturn hstop
    · rename_i hgoesOn
      refine .round hturn (Bool.eq_false_iff.2 hgoesOn) ?_
      refine finishes_run hm hwidth fuel (hshape.turnAsking hturn) ?_
      have hepoch : (mark.after (turn task.settings row width
        (task.points.flatMap Tensor.rowLists) mark)).epoch = mark.epoch + 1 := rfl
      rw [hepoch]
      push_cast at hfuel
      omega

end Lloyd

/-! ## Runs and fits -/

/-- The new controller that an estimator uses for a fit. -/
def Estimator.attempt {α : Type} (e : Estimator α) : Attempt α :=
  ⟨e.plan, .ofSettings e.plan.settings, e.calls, e.clock⟩

section Runs

variable {settings : Settings} {m : Measure Rat} {row : Tensor Rat → List Rat → List Rat}
  {points initial : Tensor Rat} {parts : List (Tensor Rat)} {size width : Nat}

theorem IsSplit.shaped (h : IsSplit width parts points) {centroids : Tensor Rat}
    (hc : centroids.shape = [settings.k, width]) :
    Task.Shaped ⟨settings, m, parts⟩ width centroids := ⟨hc, h.shape⟩

/-- A run over a split finds what the reference finds over all points. -/
theorem run_matches_lloyd (hm : m.RowByRow row) (hwidth : 0 < width)
    (hinitial : initial.shape = [settings.k, width]) (hsplit : IsSplit width parts points)
    {a : Attempt Rat} (ha : a.Undisturbed ⟨settings, m, parts⟩) {slot : Slot Rat}
    (hslot : slot.Usable) :
    ∃ r s, a.run slot parts initial = .ok r s ∧
      r.findings = Lloyd.run settings row width points.rowLists settings.maxRounds
        (.start initial) := by
  have hshape : Task.Shaped ⟨settings, m, parts⟩ width (Mark.start initial).centroids :=
    hsplit.shaped hinitial
  have hfinishes := Lloyd.finishes_run hm hwidth settings.maxRounds hshape
    (by simp only [Mark.start]; omega)
  rw [hsplit.rows] at hfinishes
  exact ha.run_returns (Iteration.checkInputs_of_shaped hsplit.ne_nil hshape) hslot hfinishes

/-- So does a fit, however the points are split for it. -/
theorem fit_matches_lloyd (hm : m.RowByRow row) (hpoints : points.shape = [size, width])
    (hwidth : 0 < width) (hinitial : initial.shape = [settings.k, width]) {e : Estimator Rat}
    (he : e.attempt.Undisturbed ⟨settings, m, parts⟩) (hslot : e.slot.Usable)
    {given : Option (Tensor Rat)} (hprepare : e.prepare points given = .ok (parts, initial)) :
    ∃ r, (e.fit points given).answer = .ok ⟨r.centroids, e.plan.measure, some r⟩ ∧
      r.findings = Lloyd.run settings row width points.rowLists settings.maxRounds
        (.start initial) := by
  have hsplit := isSplit_prepare hpoints hprepare
  obtain ⟨r, s, hrun, hfindings⟩ := run_matches_lloyd hm hwidth hinitial hsplit he hslot
  refine ⟨r, ?_, hfindings⟩
  have hsession : Iteration.run e.plan parts initial e.session = .ok r s := hrun
  unfold Estimator.fit
  rw [hprepare]
  dsimp only [Estimator.carryOut]
  rw [hsession]
  rfl

/-- In exact arithmetic and with a measure that computes row by row, clustering over partitions is
    Lloyd's algorithm over all points. A round over any split forms the centroids of the reference,
    its labels, in the order of the points, and its inertia, whatever criterion is asked then; it
    only fails if that does or the session is disturbed. A run finds what the reference finds, and so
    does a fit, whatever number of partitions or size of chunks it is told. -/
theorem partitioned_matches_lloyd (settings : Settings) (hm : m.RowByRow row)
    (hpoints : points.shape = [size, width]) (hwidth : 0 < width) :
    (∀ parts, IsSplit width parts points →
      ∀ (plan : Plan Rat) (first : Int) (here : Iteration.Standing Rat) (mark : Mark Rat)
        (s : Session Rat), plan.Serves ⟨settings, m, parts⟩ →
      mark.centroids.shape = [settings.k, width] → here.epoch = mark.epoch →
      here.centroids = mark.centroids → Ready ⟨settings, m, parts⟩ mark here.handedOut s →
      let t := Lloyd.turn settings row width points.rowLists mark
      (Iteration.round plan first here).Ends s
        (fun out s' => out.1.centroids = t.next ∧ out.1.labels = t.labels ∧
          out.1.epoch = mark.epoch + 1 ∧ s'.inertia = mark.inertia ++ [t.inertia] ∧
          t.next.shape = [settings.k, width] ∧
          Ready ⟨settings, m, parts⟩ (mark.after t) out.1.handedOut s')
        (fun _ _ => plan.Calm ⟨settings, m, parts⟩ → ∀ stop,
          (s.criterion.ask (mark.epoch + 1) t.next (some mark.centroids)).1 ≠ .ok stop)) ∧
    (∀ initial : Tensor Rat, initial.shape = [settings.k, width] →
      let found := Lloyd.run settings row width points.rowLists settings.maxRounds (.start initial)
      (∀ parts (a : Attempt Rat) slot, IsSplit width parts points →
        a.Undisturbed ⟨settings, m, parts⟩ → slot.Usable →
        ∃ r s, a.run slot parts initial = .ok r s ∧ r.findings = found) ∧
      ∀ (e : Estimator Rat) given parts, e.prepare points given = .ok (parts, initial) →
        e.attempt.Undisturbed ⟨settings, m, parts⟩ → e.slot.Usable →
        ∃ r, (e.fit points given).answer = .ok ⟨r.centroids, e.plan.measure, some r⟩ ∧
          r.findings = found) := by
  constructor
  · intro parts hsplit plan first here mark s hplan hc hepoch hcentroids hready
    have hshape : Task.Shaped ⟨settings, m, parts⟩ width mark.centroids := hsplit.shaped hc
    -- the round of the task is that of the reference over the points of all parts
    have hturn := fun criterion => Lloyd.turnAsking_eq hm hshape hwidth criterion
    have hnext := (hshape.turnAsking (Lloyd.turn_eq hm hshape hwidth)).centroids
    rw [hsplit.rows] at hturn hnext
    refine (Iteration.round_ends hplan hshape first hepoch hcentroids hready).mono
      (fun out s' hs' => ?_) fun e s' hs' hcalm stop hstop => ?_
    · obtain ⟨t, ht, -, hafter, hready', -, -⟩ := hs'
      rw [hturn] at ht
      obtain ⟨stop, -, rfl⟩ := map_eq_ok.1 ht
      rw [hafter.handedOut_eq]
      exact ⟨hafter.centroids_eq, hafter.labels_eq, hafter.epoch_eq, hready'.inertia,
        hnext, hready'⟩
    · rw [hturn] at hs'
      dsimp only at hs'
      rw [hstop] at hs'
      exact hs'.2 hcalm _ rfl
  · intro initial hinitial
    exact ⟨fun parts a slot hsplit ha hslot => run_matches_lloyd hm hwidth hinitial hsplit ha hslot,
      fun e given parts hprepare he hslot =>
        fit_matches_lloyd hm hpoints hwidth hinitial he hslot hprepare⟩

end Runs

/-! ## Three points in chunks of two -/

namespace Sample

def points : Tensor Rat := column [0, 3, 4]

theorem isSplit_points : IsSplit 1 task.points points where
  ne_nil := by simp [task]
  shape p hp := by
    rcases List.mem_cons.1 hp with rfl | hp
    · exact ⟨2, 1, rfl, .inr rfl⟩
    · rw [List.mem_singleton.1 hp]
      exact ⟨1, 1, rfl, .inr rfl⟩
  rows := by rfl

/-- An estimator with one worker that takes the points in chunks of two. -/
def estimator : Estimator Rat where
  plan :=
    { settings
      execution := { partitions := .int 1, workers := .int 1, chunk := some 2, timeout := .null }
      measure := task.measure
      period := none }
  calls := 0
  slot := place
  clock := .stepping 0

theorem estimator_undisturbed : estimator.attempt.Undisturbed task where
  settings_eq := rfl
  plan := ⟨(Measure.stateless_euclidean _).matches, rfl, 1, rfl⟩
  criterion := rfl

/-- Where an attempt stands when the centroids wait. -/
def here : Iteration.Standing Rat where
  epoch := 0
  centroids := initial
  handedOut := true
  converged := false
  labels := []
  timings := .zero

theorem ready_waiting :
    Ready task (.start initial) true (waiting (attempt task.measure)) where
  lineup :=
    { length := rfl
      stands := fun i p hp => by
        match i, hp with
        | 0, rfl => exact ⟨_, rfl, rfl, rfl, .piece rfl rfl, rfl, fun _ h => nomatch h⟩
        | 1, rfl => exact ⟨_, rfl, rfl, rfl, .piece rfl rfl, rfl, fun _ h => nomatch h⟩ }
  barrier := ⟨[], rfl⟩
  collector := rfl
  inertia := rfl
  slot := usable_place

end Sample

/-- The first round over two partitions, and a fit in chunks of two that settles in the third. -/
theorem partitioned_matches_lloyd_sample :
    (∃ out s, Iteration.round (Sample.attempt Sample.task.measure).plan 0 Sample.here
        (Sample.waiting (Sample.attempt Sample.task.measure)) = .ok out s ∧
      out.1.centroids.rowLists = [[3 / 2], [4]] ∧ out.1.labels = [0, 0, 1] ∧ s.inertia = [18]) ∧
    ∃ r, (Sample.estimator.fit Sample.points (some Sample.initial)).answer
        = .ok ⟨r.centroids, Sample.task.measure, some r⟩ ∧
      r.rounds = 3 ∧ r.labels = [0, 1, 1] ∧ r.inertia = [18, 13 / 4, 1 / 2] := by
  have hrows : Sample.task.measure.RowByRow _ := Measure.rowByRow_euclidean _
  have hshape : Sample.points.shape = [3, 1] := rfl
  have hmatches := partitioned_matches_lloyd Sample.settings hrows hshape Nat.one_pos
  constructor
  · have hround := hmatches.1 Sample.task.points Sample.isSplit_points
      (Sample.attempt Sample.task.measure).plan 0 Sample.here (.start Sample.initial)
      (Sample.waiting (Sample.attempt Sample.task.measure)) Sample.attempt_undisturbed.serves rfl
      rfl rfl Sample.ready_waiting
    obtain ⟨out, s, hok, hcentroids, hlabels, -, hinertia, -⟩ := hround.exists_ok
      fun e s' h => h Sample.attempt_undisturbed.plan false (by with_unfolding_all rfl)
    refine ⟨out, s, hok, ?_, ?_, ?_⟩
    · rw [hcentroids]
      decide +kernel
    · rw [hlabels]
      decide +kernel
    · rw [hinertia]
      decide +kernel
  · obtain ⟨r, hr, hfindings⟩ := (hmatches.2 Sample.initial rfl).2 Sample.estimator
      (some Sample.initial) Sample.task.points rfl Sample.estimator_undisturbed
      Sample.usable_place
    refine ⟨r, hr, ?_⟩
    have hrounds : r.rounds = _ := congrArg Findings.rounds hfindings
    have hlabels : r.labels = _ := congrArg Findings.labels hfindings
    have hinertia : r.inertia = _ := congrArg Findings.inertia hfindings
    rw [hrounds, hlabels, hinertia]
    decide +kernel

end ClusterRounds
