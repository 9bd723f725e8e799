/-
  ClusterRounds.Proofs.Resumption

  Runs that are broken off and taken up again. An `Attempt` is a new controller; it
  runs a task from the first round or resumes it from the place of the checkpoint, and
  its measure or its criterion may break down at any time. `Crashed` is what a series
  of attempts leaves behind of which each was broken off. Whatever the series, the
  place then holds the record of a mark that the uninterrupted run comes to
  (`Crashed.records`), so an attempt that returns has found what that run finds.
-/

import ClusterRounds.Proofs.Runs

namespace ClusterRounds

variable {α : Type} [Scalar α]

/-! ## Attempts -/

/-- A new controller, with a measure and a clock that may have been used before. -/
structure Attempt (α : Type) where
  plan : Plan α
  criterion : Criterion α
  calls : Nat
  clock : Clock

namespace Attempt

/-- The session of the attempt: nothing but the checkpoint is left of others. -/
def session (a : Attempt α) (slot : Slot α) : Session α :=
  { Session.start a.plan a.criterion slot a.clock with calls := a.calls }

/-- The attempt begins with the first round. -/
def run (a : Attempt α) (slot : Slot α) (points : List (Tensor α)) (initial : Tensor α) :
    EStateM.Result Failure (Session α) (RunResult α) :=
  Iteration.run a.plan points initial (a.session slot)

/-- The attempt begins with what the checkpoint holds. -/
def resume (a : Attempt α) (slot : Slot α) : EStateM.Result Failure (Session α) (RunResult α) :=
  Iteration.resume a.plan none (a.session slot)

/-- The attempt is one at the task, and keeps a checkpoint. Its measure and its criterion answer as
    those of the task do, or break down. -/
structure Tries (a : Attempt α) (task : Task α) : Prop where
  plan : a.plan.Serves task
  criterion : a.criterion.Follows task.settings
  keeps : a.plan.period.isSome

/-- An attempt at the task in which nothing breaks down. -/
structure Undisturbed (a : Attempt α) (task : Task α) : Prop where
  settings_eq : a.plan.settings = task.settings
  plan : a.plan.Calm task
  criterion : a.criterion = .ofSettings task.settings

variable {a : Attempt α} {task : Task α} {slot : Slot α}

omit [Scalar α] in
theorem equipped (h : a.plan.Serves task) (hslot : slot.Usable) :
    Equipped task (a.session slot) where
  collector := congrArg (fun (s : Settings) => (s.k : Int)) h.settings_eq
  slot := hslot

omit [Scalar α] in
theorem Undisturbed.serves (h : a.Undisturbed task) : a.plan.Serves task :=
  ⟨h.settings_eq, h.plan.measure.follows⟩

theorem Undisturbed.follows (h : a.Undisturbed task) : a.criterion.Follows task.settings := by
  rw [h.criterion, ← Criterion.remembering_none]
  exact Criterion.follows_remembering _ none

/-- Undisturbed, a run returns what the task finishes with. -/
theorem Undisturbed.run_returns {initial : Tensor α} {found : Findings α}
    (h : a.Undisturbed task)
    (haccepted : Iteration.checkInputs task.settings task.points initial = .ok ())
    (hslot : slot.Usable) (hfinishes : task.Finishes (.start initial) found) :
    ∃ r s, a.run slot task.points initial = .ok r s ∧ r.findings = found := by
  have hends := Iteration.run_ends h.serves haccepted (equipped h.serves hslot)
  cases hrun : a.run slot task.points initial with
  | ok r s =>
    exact ⟨r, s, rfl, (Task.finishes_of_rounds h.follows (hends.of_ok hrun).1).unique hfinishes⟩
  | error e s =>
    refine absurd ?_ ((hends.of_error hrun).2 h.plan found)
    show task.course a.criterion _ = _
    rw [h.criterion]
    exact hfinishes.course_eq (Int.le_refl 0)

end Attempt

/-! ## Series of attempts -/

/-- What is left at the place of the checkpoint by attempts of which all were broken off, the first
    of them not before its first checkpoint. -/
inductive Crashed (task : Task α) (initial : Tensor α) (place : Slot α) : Slot α → Prop
  | first {a : Attempt α} {e : Failure} {s : Session α} (tries : a.Tries task)
      (crash : a.run place task.points initial = .error e s)
      (saved : place.saves < s.slot.saves) : Crashed task initial place s.slot
  | again {slot : Slot α} {a : Attempt α} {e : Failure} {s : Session α}
      (before : Crashed task initial place slot) (tries : a.Tries task)
      (crash : a.resume slot = .error e s) : Crashed task initial place s.slot

/-- What is returned, and what is left at the place of the checkpoint, by the one attempt that was
    not broken off. -/
inductive Returned (task : Task α) (initial : Tensor α) (place : Slot α) :
    RunResult α → Slot α → Prop
  | first {a : Attempt α} {r : RunResult α} {s : Session α} (tries : a.Tries task)
      (returns : a.run place task.points initial = .ok r s) : Returned task initial place r s.slot
  | again {slot : Slot α} {a : Attempt α} {r : RunResult α} {s : Session α}
      (before : Crashed task initial place slot) (tries : a.Tries task)
      (returns : a.resume slot = .ok r s) : Returned task initial place r s.slot

section Series

variable {task : Task α} {initial : Tensor α} {place slot : Slot α} {width : Nat}
  (haccepted : Iteration.checkInputs task.settings task.points initial = .ok ())
  (hshape : initial.shape = [task.settings.k, width]) (hwidth : 0 < width)
  (husable : place.Usable)

omit [Scalar α] in
include haccepted hshape in
theorem shaped_start : task.points ≠ [] ∧ task.Shaped width (Mark.start initial).centroids := by
  obtain ⟨hpoints, w, hw, hshaped⟩ := Iteration.shaped_of_checkInputs task.measure haccepted
  rw [hw] at hshape
  cases hshape
  exact ⟨hpoints, hshaped⟩

include haccepted hshape hwidth husable

/-- The place holds the record of a mark on the way of the uninterrupted run. -/
theorem Crashed.records (h : Crashed task initial place slot) :
    slot.Usable ∧ ∃ z mid, task.Leads (.start initial) mid ∧ z.Records task mid ∧
      slot.held = .snapshot z := by
  obtain ⟨hpoints, hshaped⟩ := shaped_start haccepted hshape
  induction h with
  | first tries crash saved =>
    have hends := Iteration.run_ends tries.plan haccepted (Attempt.equipped tries.plan husable)
    rcases (hends.of_error crash).1 tries.criterion with heq | ⟨z, mid, hmid, hz, hheld, hu, -⟩
    · -- nothing was saved, but something was
      rw [show _ = place from heq] at saved
      exact absurd saved (Nat.lt_irrefl _)
    · exact ⟨hu, z, mid, hmid, hz, hheld⟩
  | again before tries crash ih =>
    obtain ⟨hu, z, mid, hmid, hz, hheld⟩ := ih
    have hends := Iteration.resume_ends tries.plan hz (hmid.shaped hshaped) hwidth hmid.epoch_le
      hpoints (Attempt.equipped tries.plan hu) hheld
    -- the old record is still there, or one of a mark further on
    rcases (hends.of_error crash).1 tries.criterion with heq | ⟨z', far, hfar, hz', hheld', hu', -⟩
    · rw [heq]
      exact ⟨hu, z, mid, hmid, hz, hheld⟩
    · exact ⟨hu', z', far, hmid.trans hfar, hz', hheld'⟩

/-- What is returned is what the task finishes with, and no checkpoint is left. -/
theorem Returned.finishes {r : RunResult α} (h : Returned task initial place r slot) :
    task.Finishes (.start initial) r.findings ∧ slot.held = .nothing := by
  obtain ⟨hpoints, hshaped⟩ := shaped_start haccepted hshape
  cases h with
  | first tries returns =>
    have hends := Iteration.run_ends tries.plan haccepted (Attempt.equipped tries.plan husable)
    obtain ⟨hcourse, hheld⟩ := hends.of_ok returns
    exact ⟨Task.finishes_of_rounds tries.criterion hcourse, hheld tries.keeps⟩
  | again before tries returns =>
    obtain ⟨hu, z, mid, hmid, hz, hheld⟩ :=
      before.records haccepted hshape hwidth husable
    have hends := Iteration.resume_ends tries.plan hz (hmid.shaped hshaped) hwidth hmid.epoch_le
      hpoints (Attempt.equipped tries.plan hu) hheld
    obtain ⟨hcourse, hheld⟩ := hends.of_ok returns
    exact ⟨hmid.finishes (Task.finishes_of_rounds tries.criterion hcourse), hheld tries.keeps⟩

/-- However often a run is broken off and taken up again: what it returns in the end is what one
    uninterrupted run returns, and no checkpoint is left. Nor do the crashes keep it from returning:
    if the settings equal themselves, an attempt in which nothing breaks down returns from whatever
    they left behind. -/
theorem resumed_matches_uninterrupted {straight : Attempt α} {free : Slot α}
    (hstraight : straight.Undisturbed task) (hfree : free.Usable) :
    (∀ r slot, Returned task initial place r slot → ∃ r₀ s₀,
      straight.run free task.points initial = .ok r₀ s₀ ∧ r.findings = r₀.findings ∧
      slot.held = .nothing) ∧
    (task.settings.same task.settings → ∀ slot (a : Attempt α),
      Crashed task initial place slot → a.Tries task → a.Undisturbed task →
      ∀ r₀ s₀, straight.run free task.points initial = .ok r₀ s₀ →
        ∃ r s, a.resume slot = .ok r s ∧ r.findings = r₀.findings ∧ s.slot.held = .nothing) := by
  obtain ⟨hpoints, hshaped⟩ := shaped_start haccepted hshape
  constructor
  · intro r slot hr
    obtain ⟨hfinishes, hheld⟩ := hr.finishes haccepted hshape hwidth husable
    obtain ⟨r₀, s₀, hrun, hfindings⟩ := hstraight.run_returns haccepted hfree hfinishes
    exact ⟨r₀, s₀, hrun, hfindings.symm, hheld⟩
  · intro hsame slot a hcrashed htries ha r₀ s₀ hrun
    have hends := Iteration.run_ends hstraight.serves haccepted
      (Attempt.equipped hstraight.serves hfree)
    have hfinishes := Task.finishes_of_rounds hstraight.follows (hends.of_ok hrun).1
    obtain ⟨hu, z, mid, hmid, hz, hheld⟩ :=
      hcrashed.records haccepted hshape hwidth husable
    have hends' := Iteration.resume_ends htries.plan hz (hmid.shaped hshaped) hwidth hmid.epoch_le
      hpoints (Attempt.equipped htries.plan hu) hheld
    -- the record is of a mark on the way to what the straight run found
    have hmidFinishes := hmid.finishes_mid hfinishes
    cases hresume : a.resume slot with
    | ok r s =>
      obtain ⟨hcourse, hcleared⟩ := hends'.of_ok hresume
      have hfound := Task.finishes_of_rounds ha.follows hcourse
      exact ⟨r, s, rfl, hfound.unique hmidFinishes, hcleared htries.keeps⟩
    | error e s =>
      refine absurd ?_ ((hends'.of_error hresume).2 ha.plan htries.keeps hsame r₀.findings)
      show task.course a.criterion mid = _
      rw [ha.criterion]
      exact hmidFinishes.course_eq hmid.epoch_le

end Series

/-! ## A series with a crash -/

namespace Sample

/-- Two clusters, at most nine rounds, and a tolerance of one. -/
def settings : Settings where
  k := 2
  maxRounds := 9
  seed := 0
  measure := "euclidean"
  featuresColumn := .text "features"
  tolerance := some (.int 1)
  k_pos := by decide
  maxRounds_pos := by decide

/-- A matrix of one column. -/
def column (xs : List Rat) : Tensor Rat := .ofRowLists [1] (xs.map ([·]))

/-- Three points in two partitions. -/
def task : Task Rat := ⟨settings, .euclidean "EuclideanDistanceMeasure", [column [0, 3], column [4]]⟩

/-- Two of the points are nearest to the first centroid in the first round, and then only one. -/
def initial : Tensor Rat := column [0, 7]

/-- An attempt at the task with one worker that saves a checkpoint in every round. -/
def attempt (m : Measure Rat) : Attempt Rat where
  plan :=
    { settings
      execution := { partitions := .int 2, workers := .int 1, chunk := none, timeout := .null }
      measure := m
      period := some (.int 1) }
  criterion := .ofSettings settings
  calls := 0
  clock := .stepping 0

/-- An empty place for the checkpoint. -/
def place : Slot Rat := .empty "run.ckpt"

/-- The session of an attempt before its first boundary, the centroids waiting in both partitions. -/
def waiting (a : Attempt Rat) : Session Rat :=
  { a.session place with
    assigners :=
      [⟨0, .accumulating, [column [0, 3]], none, [initial], none⟩,
        ⟨1, .accumulating, [column [4]], none, [initial], none⟩]
    barrier := some ⟨2, none, []⟩ }

theorem usable_place : place.Usable := ⟨fun _ => rfl, _, rfl⟩

theorem accepted : Iteration.checkInputs task.settings task.points initial = .ok () := by rfl

theorem attempt_undisturbed : (attempt task.measure).Undisturbed task where
  settings_eq := rfl
  plan := ⟨(Measure.stateless_euclidean _).matches, rfl, 1, rfl⟩
  criterion := rfl

theorem attempt_tries {m : Measure Rat} (h : m.Follows task.measure) : (attempt m).Tries task where
  plan := ⟨rfl, h⟩
  criterion := by
    show (Criterion.ofSettings settings).Follows settings
    rw [← Criterion.remembering_none]
    exact Criterion.follows_remembering _ none
  keeps := rfl

/-- The result is a failure, after a save. -/
theorem exists_error {x : EStateM.Result Failure (Session Rat) (RunResult Rat)} {saves : Nat}
    (h : (match x with
      | .ok _ _ => false
      | .error _ s => decide (saves < s.slot.saves)) = true) :
    ∃ e s, x = .error e s ∧ saves < s.slot.saves := by
  cases x with
  | ok r s => cases h
  | error e s => exact ⟨e, s, rfl, of_decide_eq_true h⟩

theorem exists_ok {x : EStateM.Result Failure (Session Rat) (RunResult Rat)}
    (h : (match x with
      | .ok _ _ => true
      | .error _ _ => false) = true) :
    ∃ r s, x = .ok r s := by
  cases x with
  | ok r s => exact ⟨r, s, rfl⟩
  | error e s => cases h

end Sample

/-- The measure is lost in the second round, and a second attempt resumes the run. -/
theorem resumed_matches_uninterrupted_sample : ∃ r slot r₀ s₀,
    Returned Sample.task Sample.initial Sample.place r slot ∧
    (Sample.attempt Sample.task.measure).run Sample.place Sample.task.points Sample.initial
      = .ok r₀ s₀ ∧ r.findings = r₀.findings ∧ slot.held = .nothing := by
  have hlost : (Sample.task.measure.failingAt 3 "worker lost").Follows Sample.task.measure :=
    (Measure.stateless_euclidean _).failingAt_follows 3 _
  have hfirst := Sample.attempt_tries hlost
  have hagain : (Sample.attempt Sample.task.measure).Tries Sample.task :=
    Sample.attempt_tries (Measure.stateless_euclidean _).matches.follows
  have hmatches := resumed_matches_uninterrupted Sample.accepted (by rfl)
    Nat.one_pos Sample.usable_place Sample.attempt_undisturbed Sample.usable_place
  -- the first attempt fails after its first checkpoint
  obtain ⟨e, s, hcrash, hsaved⟩ : ∃ e s,
      (Sample.attempt (Sample.task.measure.failingAt 3 "worker lost")).run Sample.place
        Sample.task.points Sample.initial = .error e s ∧
      Sample.place.saves < s.slot.saves := by
    apply Sample.exists_error
    decide +kernel
  obtain ⟨r₀, s₀, hstraight⟩ : ∃ r₀ s₀,
      (Sample.attempt Sample.task.measure).run Sample.place Sample.task.points Sample.initial
        = .ok r₀ s₀ := by
    apply Sample.exists_ok
    decide +kernel
  have hcrashed : Crashed Sample.task Sample.initial Sample.place s.slot :=
    .first hfirst hcrash hsaved
  obtain ⟨r, s', hresume, -⟩ := hmatches.2 (by rfl) s.slot (Sample.attempt Sample.task.measure)
    hcrashed hagain Sample.attempt_undisturbed r₀ s₀ hstraight
  have hreturned : Returned Sample.task Sample.initial Sample.place r s'.slot :=
    .again hcrashed hagain hresume
  obtain ⟨r₀, s₀, hstraight, hfindings, hheld⟩ := hmatches.1 r s'.slot hreturned
  exact ⟨r, s'.slot, r₀, s₀, hreturned, hstraight, hfindings, hheld⟩

end ClusterRounds
