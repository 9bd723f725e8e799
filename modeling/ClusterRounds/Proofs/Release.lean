/-
  ClusterRounds.Proofs.Release

  What a controller is left with, whichever way its runs end. The rounds are surrounded by a
  release, so behind them every operator is at its end and holds nothing, and no pool is open;
  and a run that is refused leaves everything as it was. In between lies the taking up of a
  snapshot: if a partition cannot be taken up, those before it stay as they are, with their
  points. So a run that is asked for leaves something behind exactly if it breaks off there
  (`carryOut_released_iff`).

  All of this is about the moment when a run ends. If a round was cut off, a worker may still be
  inside its boundary then, and puts its operator, which has been let go, back into the phase of
  gathering when it comes out of it. That is not followed here; no later run meets the operator.
-/

import ClusterRounds.Proofs.Acceptance
import ClusterRounds.Proofs.Ending
import ClusterRounds.Proofs.Resumption

namespace ClusterRounds

variable {α : Type}

/-! ## Sessions that hold nothing -/

/-- Every operator is at its end and holds nothing, and no pool is open. -/
structure Session.Released (s : Session α) : Prop where
  ended : ∀ a ∈ s.assigners, Assigner.Ended a.id a
  pool_eq : s.pool = none

theorem Session.released_release (s : Session α) : s.release.Released where
  ended a ha := by
    obtain ⟨b, -, rfl⟩ := List.mem_map.1 ha
    exact Assigner.ended_terminate b
  pool_eq := rfl

theorem Session.Released.congr {s t : Session α} (h : s.Released)
    (hassigners : t.assigners = s.assigners) (hpool : t.pool = s.pool) : t.Released :=
  ⟨hassigners ▸ h.ended, hpool.trans h.pool_eq⟩

/-- An operator that has been restored is not at its end. -/
theorem Session.not_released_of_restored {s : Session α}
    {done : List (Int × PartitionSnapshot α)} (hne : done ≠ [])
    (h : List.Forall₂ Assigner.Restored done s.assigners) : ¬ s.Released := by
  intro hreleased
  cases hassigners : s.assigners with
  | nil =>
    rw [hassigners, List.forall₂_nil_right_iff] at h
    exact hne h
  | cons a rest =>
    rw [hassigners] at h
    obtain ⟨entry, _, ha, -, -⟩ := List.forall₂_cons_right_iff.1 h
    have hphase := (hreleased.ended a (hassigners ▸ List.mem_cons_self)).phase_eq
    rw [ha.phase_eq] at hphase
    cases hphase

namespace Iteration

/-- Removing the checkpoint touches no operator and no pool. -/
theorem clearCheckpoint_releases (plan : Plan α) {s : Session α} (h : s.Released) :
    (clearCheckpoint plan).Ends s (fun _ s' => s'.Released) (fun _ s' => s'.Released) := by
  unfold clearCheckpoint
  split
  · simp only [Step.ends_bind, Step.ends_get, Step.ends_set]
    exact Step.ends_ofOutcome_of (fun _ _ => h.congr rfl rfl) fun _ _ => h.congr rfl rfl
  · exact h

variable [Scalar α] {plan : Plan α} {s : Session α}

/-- Behind the rounds everything is released. -/
theorem iterate_releases (centroids : Tensor α) (first : Int) (handedOut : Bool)
    (hs : s.assigners ≠ []) :
    (iterate plan centroids first handedOut).Ends s (fun _ s' => s'.Released)
      (fun _ s' => s'.Released) := by
  have hparties : (Barrier.ofParties s.assigners.length : Outcome (Barrier (PartitionOutput α)))
      = .ok ⟨s.assigners.length, none, []⟩ :=
    Barrier.ofParties_eq_ok.2 ⟨List.length_pos_iff.2 hs, rfl⟩
  simp only [iterate, Step.ends_bind, Step.ends_get, hparties, Step.ends_ofOutcome_ok, Step.ends_set,
    Step.ends_thenRelease]
  -- whatever happens before, the release comes after it
  refine Step.ends_of_forall (fun _ s₁ => ?_) fun _ s₁ => s₁.released_release
  refine Step.ends_of_forall (fun last s₂ => ?_) fun _ s₂ => s₂.released_release
  exact (clearCheckpoint_releases plan s₂.released_release).mono (fun _ _ h => h.congr rfl rfl)
    fun _ _ h => h

end Iteration

/-! ## What can be asked for -/

/-- The operator of the first partition takes up its points, that of another one cannot. -/
def Snapshot.BreaksOff (z : Snapshot α) : Prop :=
  (∃ first, z.ordered.head? = some first ∧ first.2.HasMatrix) ∧
    ∃ entry ∈ z.ordered, ¬ entry.2.HasMatrix

/-- What a controller can be asked for. -/
inductive Request (α : Type) where
  | run (partitions : List (Tensor α)) (initial : Tensor α)
  | resume (given : Option (Snapshot α))

namespace Request

/-- The inputs are accepted, or the snapshot that is asked for. -/
def Accepted (plan : Plan α) (slot : Slot α) : Request α → Prop
  | run partitions initial => Iteration.checkInputs plan.settings partitions initial = .ok ()
  | resume given => ∃ z, Iteration.TakenUp plan given slot z

/-- The snapshot that is asked for is accepted, and some of it is taken up but not all. -/
def BreaksOff (plan : Plan α) (slot : Slot α) : Request α → Prop
  | run _ _ => False
  | resume given => ∃ z, Iteration.TakenUp plan given slot z ∧ z.BreaksOff

theorem BreaksOff.accepted {plan : Plan α} {slot : Slot α} {r : Request α}
    (h : r.BreaksOff plan slot) : r.Accepted plan slot := by
  cases r with
  | run partitions initial => exact h.elim
  | resume given =>
    obtain ⟨z, htaken, -⟩ := h
    exact ⟨z, htaken⟩

/-- How a request can leave a session, by what is asked for. -/
inductive Leaves (plan : Plan α) (r : Request α) (s s' : Session α) : Prop
  | refused (refused : ¬ r.Accepted plan s.slot) (same : s' = s)
  | brokenOff (breaksOff : r.BreaksOff plan s.slot) (held : ¬ s'.Released) (pool : s'.pool = s.pool)
  | released (accepted : r.Accepted plan s.slot) (whole : ¬ r.BreaksOff plan s.slot)
      (released : s'.Released)

namespace Leaves

variable {plan : Plan α} {r : Request α} {s s' : Session α} (h : r.Leaves plan s s')

include h

theorem pool_eq (hs : s.pool = none) : s'.pool = none := by
  cases h with
  | refused _ same => rw [same, hs]
  | brokenOff _ _ pool => rw [pool, hs]
  | released _ _ released => exact released.pool_eq

theorem released_iff : s'.Released ↔ r.Accepted plan s.slot ∧ ¬ r.BreaksOff plan s.slot ∨
    ¬ r.Accepted plan s.slot ∧ s.Released := by
  cases h with
  | refused refused same => simp [refused, same]
  | brokenOff breaksOff held _ => simp [breaksOff, breaksOff.accepted, held]
  | released accepted whole released => simp [accepted, whole, released]

end Leaves

variable [Scalar α] {plan : Plan α} {s : Session α}

def step (plan : Plan α) : Request α → Step α (RunResult α)
  | run partitions initial => Iteration.run plan partitions initial
  | resume given => Iteration.resume plan given

theorem run_leaves (partitions : List (Tensor α)) (initial : Tensor α) :
    (Iteration.run plan partitions initial).Ends s
      (fun _ s' => (run partitions initial).Leaves plan s s')
      (fun _ s' => (run partitions initial).Leaves plan s s') := by
  rw [Iteration.run_eq_bind, Step.ends_bind]
  refine (Iteration.start_loads plan s partitions initial).mono ?_ ?_
  · rintro _ s₁ ⟨haccepted, hloaded⟩
    have hne : s₁.assigners ≠ [] := by
      rw [hloaded, ne_eq, List.map_eq_nil_iff, List.zipIdx_eq_nil_iff]
      exact (Iteration.shaped_of_checkInputs plan.measure haccepted).1
    exact (Iteration.iterate_releases initial 0 false hne).mono
      (fun _ _ h => .released haccepted not_false h) fun _ _ h => .released haccepted not_false h
  · rintro _ s₁ ⟨hrefused, hsame⟩
    exact .refused hrefused hsame

/-- A snapshot with nothing but matrices of points is taken up as a whole. -/
theorem resume_leaves (given : Option (Snapshot α)) (hpool : s.pool = none) :
    (Iteration.resume plan given).Ends s (fun _ s' => (resume given).Leaves plan s s')
      (fun _ s' => (resume given).Leaves plan s s') := by
  have hunique : ∀ {y z}, Iteration.TakenUp plan given s.slot y →
      Iteration.TakenUp plan given s.slot z → y = z := fun hy hz =>
    Except.ok.inj (hy.1.symm.trans hz.1)
  rw [Iteration.resume_eq_bind, Step.ends_bind]
  refine (Iteration.takeUp_accepts plan given s).mono ?_ ?_
  · rintro z s₁ ⟨htaken, hall, -⟩
    have hwhole : ¬ (resume given).BreaksOff plan s.slot := by
      rintro ⟨y, hy, -, entry, hentry, hmatrix⟩
      exact hmatrix (hasMatrix_of_restored hall entry (hunique hy htaken ▸ hentry))
    have hne : s₁.assigners ≠ [] := by
      intro hnil
      rw [hnil, List.forall₂_nil_right_iff] at hall
      exact (Iteration.accepted_of_askedFor htaken.1).ordered_ne hall
    exact (Iteration.iterate_releases z.centroids z.epoch true hne).mono
      (fun _ _ h => .released ⟨z, htaken⟩ hwhole h) fun _ _ h => .released ⟨z, htaken⟩ hwhole h
  · rintro _ s₁ (⟨hrefused, hsame⟩ | ⟨z, done, entry, rest, htaken, hsplit, hmatrix, hdone, hpool₁⟩)
    · exact .refused (fun ⟨z, hz⟩ => hrefused z hz) hsame
    · cases done with
      | nil =>
        -- not even the first one was taken up
        rw [List.forall₂_nil_left_iff] at hdone
        refine .released ⟨z, htaken⟩ ?_ ⟨fun a ha => ?_, hpool₁.trans hpool⟩
        · rintro ⟨y, hy, ⟨first, hfirst, hmatrix'⟩, -⟩
          rw [hunique hy htaken, hsplit] at hfirst
          cases hfirst
          exact hmatrix hmatrix'
        · rw [hdone] at ha
          cases ha
      | cons first done =>
        refine .brokenOff ⟨z, htaken, ⟨first, by rw [hsplit]; rfl,
          hasMatrix_of_restored hdone first List.mem_cons_self⟩, entry, ?_, hmatrix⟩
          (Session.not_released_of_restored (List.cons_ne_nil _ _) hdone) hpool₁
        rw [hsplit]
        exact List.mem_append_right _ List.mem_cons_self

theorem step_leaves (plan : Plan α) (r : Request α) (hpool : s.pool = none) :
    (r.step plan).Ends s (fun _ s' => r.Leaves plan s s') (fun _ s' => r.Leaves plan s s') := by
  cases r with
  | run partitions initial => exact run_leaves partitions initial
  | resume given => exact resume_leaves given hpool

end Request

/-! ## Any series of runs -/

/-- A request, with the place of the checkpoint and the clock as it finds them. -/
structure Errand (α : Type) where
  request : Request α
  slot : Slot α
  clock : Clock

namespace Errand

def Accepted (plan : Plan α) (e : Errand α) : Prop := e.request.Accepted plan e.slot

def BreaksOff (plan : Plan α) (e : Errand α) : Prop := e.request.BreaksOff plan e.slot

variable [Scalar α] {plan : Plan α}

/-- The answer to a request, and the session afterwards. -/
def carryOut (plan : Plan α) (s : Session α) (e : Errand α) : Outcome (RunResult α) × Session α :=
  match e.request.step plan { s with slot := e.slot, clock := e.clock } with
  | .ok r s' => (.ok r, s')
  | .error failure s' => (.error failure, s')

theorem carryOut_leaves (plan : Plan α) {s : Session α} (e : Errand α) (hpool : s.pool = none) :
    e.request.Leaves plan { s with slot := e.slot, clock := e.clock } (e.carryOut plan s).2 := by
  have hends := e.request.step_leaves plan (s := { s with slot := e.slot, clock := e.clock }) hpool
  unfold Step.Ends at hends
  unfold carryOut
  cases hx : e.request.step plan { s with slot := e.slot, clock := e.clock } with
  | ok r s' =>
    rw [hx] at hends
    exact hends
  | error failure s' =>
    rw [hx] at hends
    exact hends

/-- When everything is released behind a request. -/
theorem carryOut_released_iff {s : Session α} (e : Errand α) (hpool : s.pool = none) :
    (e.carryOut plan s).2.Released ↔
      e.Accepted plan ∧ ¬ e.BreaksOff plan ∨ ¬ e.Accepted plan ∧ s.Released := by
  have hfound : ({ s with slot := e.slot, clock := e.clock } : Session α).Released ↔ s.Released :=
    ⟨fun h => h.congr rfl rfl, fun h => h.congr rfl rfl⟩
  have hleaves := (e.carryOut_leaves plan hpool).released_iff
  rwa [hfound] at hleaves

end Errand

/-- Whatever a controller is asked for, one request after the other, and whichever way each of them
    ends: afterwards everything is released, unless the request breaks off while a snapshot is taken
    up, or is refused and there was something before. -/
theorem every_end_releases [Scalar α] (plan : Plan α) (criterion : Criterion α) (slot : Slot α)
    (clock : Clock) (errands : List (Errand α)) :
    ((∀ e ∈ errands, ¬ e.BreaksOff plan) → (History.after (Errand.carryOut plan)
        (Session.start plan criterion slot clock) errands).Released) ∧
      ∀ e, (History.after (Errand.carryOut plan) (Session.start plan criterion slot clock)
          (errands ++ [e])).Released ↔
        e.Accepted plan ∧ ¬ e.BreaksOff plan ∨
        ¬ e.Accepted plan ∧ (History.after (Errand.carryOut plan)
          (Session.start plan criterion slot clock) errands).Released := by
  have hpool : (History.after (Errand.carryOut plan) (Session.start plan criterion slot clock)
      errands).pool = none :=
    History.invariant (I := fun _ (s : Session α) => s.pool = none) rfl
      fun _ _ e _ h => (e.carryOut_leaves plan h).pool_eq h
  constructor
  · intro hwhole
    have hstart : (Session.start plan criterion slot clock).Released := ⟨nofun, rfl⟩
    refine History.invariant (I := fun _ (s : Session α) => s.Released) hstart
      fun _ s e he h => (e.carryOut_released_iff h.pool_eq).2 ?_
    by_cases haccepted : e.Accepted plan
    · exact .inl ⟨haccepted, hwhole e he⟩
    · exact .inr ⟨haccepted, h⟩
  · intro e
    rw [History.after_concat, e.carryOut_released_iff hpool]

/-! ## A snapshot that is taken up in part -/

namespace Sample

/-- One cluster, one round, and no tolerance. -/
def lone : Settings :=
  { settings with
    k := 1, maxRounds := 1, tolerance := none, k_pos := Nat.one_pos, maxRounds_pos := Nat.one_pos }

def lonePlan : Plan Rat := { (attempt task.measure).plan with settings := lone }

/-- Two partitions before the first round; no points are stored of the second. -/
def partlyStored : Snapshot Rat where
  epoch := 0
  centroids := column [0]
  partitions :=
    [(0, ⟨0, some (column [1]), [column [0]], none, .known .accumulating⟩),
      (1, ⟨1, none, [column [0]], none, .known .accumulating⟩)]
  settings := lone
  inertia := []

/-- A controller that nobody has asked for anything. -/
def untouched : Session Rat := .start lonePlan (.ofSettings lone) place (.stepping 0)

theorem ordered_partlyStored : partlyStored.ordered = partlyStored.partitions :=
  List.mergeSort_of_pairwise (by decide)

theorem accepted_partlyStored : partlyStored.validate = .ok () := by
  have hids : partlyStored.ids = [0, 1] := by
    rw [← Snapshot.map_ordered, ordered_partlyStored]
    rfl
  simp only [Snapshot.validate, hids]
  rfl

end Sample

/-- The second partition cannot be taken up, and the controller is left with the point and the
    centroid set of the first. -/
theorem partly_restored_is_kept : ∃ s,
    Iteration.resume Sample.lonePlan (some Sample.partlyStored) Sample.untouched
      = .error (.recovery (.malformedPoints 1)) s ∧
      s.assigners.map Assigner.sight = [⟨.accumulating, 1, 1, none⟩] ∧ ¬ s.Released := by
  have hends : (Iteration.resume Sample.lonePlan (some Sample.partlyStored)).Ends Sample.untouched
      (fun _ _ => False)
      (fun e s => e = .recovery (.malformedPoints 1) ∧
        s.assigners.map Assigner.sight = [⟨.accumulating, 1, 1, none⟩]) := by
    simp only [Iteration.resume, Iteration.snapshotFor, Sample.accepted_partlyStored, Step.ends_bind,
      Step.ends_ofOutcome_ok, Step.ends_pure, Sample.ordered_partlyStored]
    exact ⟨rfl, rfl⟩
  obtain ⟨_, s, hresume, rfl, hsights⟩ := hends.exists_error fun _ _ h => h
  refine ⟨s, hresume, hsights, fun hreleased => ?_⟩
  -- an operator at its end would show it
  have hphases : ∀ shown ∈ s.assigners.map Assigner.sight, shown.phase = .terminated := by
    intro shown hshown
    obtain ⟨a, ha, rfl⟩ := List.mem_map.1 hshown
    exact (hreleased.ended a ha).phase_eq
  rw [hsights] at hphases
  cases hphases _ List.mem_cons_self

end ClusterRounds
