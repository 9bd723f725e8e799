/-
  ClusterRounds.Proofs.Reuse

  A controller that has been used is as good as a new one. Whatever it was asked for before, and
  whichever way that ended, its collector and its criterion are those of the settings, and no
  pool is open (`carryOut_setFor`); everything else that is left over is replaced before a run
  looks at it. So the next run agrees with the same run of a new controller, also about its
  failure (`run_agrees`).
-/

import ClusterRounds.Proofs.Agreement
import ClusterRounds.Proofs.Release

namespace ClusterRounds

variable {α : Type}

namespace Iteration

open Session

/-! ## What every step keeps of a controller -/

section Frames

variable {plan : Plan α} {settings : Settings} {s : Session α}

theorem start_setFor (h : s.SetFor settings) (partitions : List (Tensor α)) (initial : Tensor α) :
    (start plan partitions initial).Ends s (fun _ s' => s'.SetFor settings)
      (fun _ s' => s'.SetFor settings) := by
  simp only [start, Step.ends_bind, Step.ends_modify]
  exact Step.ends_ofOutcome_of (fun _ _ => Step.ends_ofOutcome_of (fun _ _ => h) fun _ _ => h)
    fun _ _ => h

theorem takeUp_setFor (h : s.SetFor settings) (given : Option (Snapshot α)) :
    (takeUp plan given).Ends s (fun _ s' => s'.SetFor settings) (fun _ s' => s'.SetFor settings) := by
  rw [takeUp, Step.ends_bind]
  refine (snapshotFor_ends plan given s).mono (fun z s₁ hz => ?_) fun _ s₁ hs₁ => ?_
  · obtain ⟨-, rfl⟩ := hz
    split
    · exact h
    · simp only [Step.ends_bind, Step.ends_modify]
      refine (Step.ends_forM (s := { s₁ with assigners := [] })
        (I := fun _ s' => s'.SetFor settings) h fun _ entry _ s' _ h' => ?_).mono
        (fun _ s' h' => h') fun _ _ h' => h'
      simp only [restorePartition, Step.ends_bind]
      exact Step.ends_ofOutcome_of (fun _ _ => h') fun _ _ => h'
  · obtain ⟨-, rfl⟩ := hs₁
    exact h

theorem prepare_setFor (h : s.SetFor settings) (here : Standing α) :
    (prepare plan here).Ends s (fun _ s' => s'.SetFor settings) (fun _ s' => s'.SetFor settings) := by
  unfold prepare
  split
  · simp only [broadcast, Step.ends_bind, Step.ends_get]
    refine Step.ends_ofOutcome_of (fun assigners _ => ?_) fun _ _ => h
    rw [Step.ends_set]
    unfold checkpoint
    split
    · exact h
    · split
      · simp only [takeSnapshot, save, Step.ends_bind, Step.ends_get, Step.ends_set, Step.ends_pure]
        refine Step.ends_ofOutcome_of (fun _ _ => ?_) fun _ _ => h
        exact Step.ends_ofOutcome_of (fun _ _ => h) fun _ _ => h
      · exact h
  · exact h

theorem enter_setFor (h : s.SetFor settings) :
    (enter plan).Ends s (fun _ s' => s'.SetFor settings) (fun _ s' => s'.SetFor settings) := by
  simp only [enter, Step.ends_bind, Step.ends_get, Step.ends_set]
  refine Step.ends_ofOutcome_of (fun barrier _ => ?_) fun _ _ => h
  refine (openPool_ends plan _).mono (fun _ s' hs' => ?_) fun _ s' hs' => ?_
  · obtain ⟨pool, rfl⟩ := hs'
    exact h
  · obtain ⟨rfl, -⟩ := hs'
    exact h

theorem finish_setFor (h : s.SetFor settings) (last : Standing α) :
    (finish plan last).Ends s (fun _ s' => s'.SetFor settings) (fun _ s' => s'.SetFor settings) := by
  simp only [finish, clearCheckpoint, Step.ends_bind]
  split
  · simp only [Step.ends_bind, Step.ends_get, Step.ends_set]
    exact Step.ends_ofOutcome_of (fun _ _ => h) fun _ _ => h
  · exact h

end Frames

variable [Scalar α] {plan : Plan α} {settings : Settings} {s : Session α}

/-- The collector remembers other clusters, but is for as many. -/
theorem update_setFor (h : s.SetFor settings) (outputs : List (PartitionOutput α))
    (centroids : Tensor α) :
    (update outputs centroids).Ends s (fun _ s' => s'.SetFor settings)
      (fun _ s' => s'.SetFor settings) := by
  simp only [update, Step.ends_bind, Step.ends_get]
  refine Step.ends_ofOutcome_of (fun merged _ => ?_) fun _ _ => h
  refine Step.ends_ofOutcome_of (fun means _ => ?_) fun _ _ => h
  refine Step.ends_ofOutcome_of (fun collected hcollect => ?_) fun _ _ => h
  have h' : Session.SetFor settings { s with collector := collected.2 } :=
    ⟨(Collector.k_of_collect hcollect).trans h.1, h.2⟩
  rw [Step.ends_set]
  split
  · exact h'
  · exact h'

/-- The criterion remembers another change, but asks for the same. -/
theorem askCriterion_setFor (h : s.SetFor settings) (round : Int) (next previous : Tensor α) :
    (askCriterion round next previous).Ends s (fun _ s' => s'.SetFor settings)
      (fun _ s' => s'.SetFor settings) := by
  obtain ⟨hk, last, hlast⟩ := h
  -- it is asked before its answer is looked at, so this holds also if there is none
  have h' : Session.SetFor settings
      { s with criterion := (s.criterion.ask round next (some previous)).2 } := by
    refine ⟨hk, ?_⟩
    rw [hlast]
    exact Criterion.exists_remembering_ask settings last round next previous
  simp only [askCriterion, Step.ends_bind, Step.ends_get, Step.ends_set]
  exact Step.ends_ofOutcome_of (fun _ _ => h') fun _ _ => h'

theorem round_setFor (h : s.SetFor settings) (first : Int) (here : Standing α) :
    (round plan first here).Ends s (fun _ s' => s'.SetFor settings)
      (fun _ s' => s'.SetFor settings) := by
  simp only [round, Step.ends_bind]
  refine (prepare_setFor h here).mono (fun _ s₁ h₁ => ?_) fun _ _ h' => h'
  -- the partitions touch neither the collector nor the criterion
  have hfired {s' : Session α} {clock : Clock} (h : ({ s₁ with clock } : Session α).SameElse s') :
      s'.SetFor settings := by
    unfold Session.SetFor
    rw [h.collector_eq, h.criterion_eq]
    exact h₁
  refine Step.ends_timed fun clock => (firePartitions_sameElse plan here.epoch here.centroids _).mono
    (fun outputs s₂ h₂ => ?_) fun _ s' h' _ => (hfired h' : s'.SetFor settings)
  intro assign clock₂
  have hs₂ : s₂.SetFor settings := hfired h₂
  refine Step.ends_timed fun clock₃ => (update_setFor (s := { s₂ with clock := clock₃ }) hs₂ outputs
    here.centroids).mono (fun next s₃ h₃ => ?_) fun _ _ h' _ => h'
  intro spent clock₄
  rw [Step.ends_modify]
  refine Step.ends_ofOutcome_of (fun change _ => ?_) fun _ _ => h₃
  refine (askCriterion_setFor (s := { s₃ with clock := clock₄, inertia := _ }) h₃ (here.epoch + 1)
    next here.centroids).mono (fun stop s₄ h₄ => ?_) fun _ _ h' => h'
  simp only [announce, Step.ends_get, Step.ends_pure]
  split
  · exact h₄
  · exact h₄

theorem rounds_setFor (first : Int) :
    ∀ (fuel : Nat) {here : Standing α} {s : Session α}, s.SetFor settings →
      (rounds plan first fuel here).Ends s (fun _ s' => s'.SetFor settings)
        (fun _ s' => s'.SetFor settings)
  | 0, _, _, h => h
  | fuel + 1, here, s, h => by
    simp only [rounds, Step.ends_bind]
    refine (round_setFor h first here).mono (fun out s₁ h₁ => ?_) fun _ _ h' => h'
    split
    · exact h₁
    · exact rounds_setFor first fuel h₁

theorem iterate_setFor (h : s.SetFor settings) (centroids : Tensor α) (first : Int)
    (handedOut : Bool) :
    (iterate plan centroids first handedOut).Ends s (fun _ s' => s'.SetFor settings)
      (fun _ s' => s'.SetFor settings) := by
  refine ends_iterate ((enter_setFor h).mono (fun _ s₁ h₁ => ?_) fun _ _ h' => ⟨h', h'⟩)
  refine (rounds_setFor first _ h₁).mono (fun last s₂ h₂ => ?_) fun _ _ h' => h'
  exact finish_setFor (s := s₂.release) h₂ last

end Iteration

open Iteration

variable [Scalar α]

/-- Whatever is asked for, and whichever way it ends, collector and criterion stay those of the
    settings. -/
theorem Request.step_setFor (plan : Plan α) (r : Request α) {settings : Settings} {s : Session α}
    (h : s.SetFor settings) :
    (r.step plan).Ends s (fun _ s' => s'.SetFor settings) (fun _ s' => s'.SetFor settings) := by
  cases r with
  | run partitions initial =>
    rw [step, run_eq_bind, Step.ends_bind]
    exact (start_setFor h partitions initial).mono (fun _ _ h₁ => iterate_setFor h₁ initial 0 false)
      fun _ _ h' => h'
  | resume given =>
    rw [step, resume_eq_bind, Step.ends_bind]
    exact (takeUp_setFor h given).mono
      (fun z _ h₁ => iterate_setFor h₁ z.centroids z.epoch true) fun _ _ h' => h'

namespace Errand

variable {plan : Plan α} {e : Errand α} {s s' : Session α}

theorem carryOut_of_ok {r : RunResult α}
    (h : e.request.step plan { s with slot := e.slot, clock := e.clock } = .ok r s') :
    e.carryOut plan s = (.ok r, s') := by
  rw [carryOut, h]

theorem carryOut_of_error {failure : Failure}
    (h : e.request.step plan { s with slot := e.slot, clock := e.clock } = .error failure s') :
    e.carryOut plan s = (.error failure, s') := by
  rw [carryOut, h]

theorem carryOut_setFor (plan : Plan α) (e : Errand α) {settings : Settings} {s : Session α}
    (h : s.SetFor settings) : (e.carryOut plan s).2.SetFor settings := by
  have hends := e.request.step_setFor plan (s := { s with slot := e.slot, clock := e.clock }) h
  unfold Step.Ends at hends
  cases hx : e.request.step plan { s with slot := e.slot, clock := e.clock } with
  | ok r s' =>
    rw [hx] at hends
    rwa [carryOut_of_ok hx]
  | error failure s' =>
    rw [hx] at hends
    rwa [carryOut_of_error hx]

end Errand

/-! ## The same run, asked of two controllers -/

namespace Iteration

variable {plan : Plan α} {s t : Session α}

omit [Scalar α] in
theorem openPool_uniform (plan : Plan α) :
    Step.Uniform (Session.Twins plan.settings) (openPool plan) := by
  refine .bind (.ofOutcome _) fun effective s t h => ?_
  rw [Step.agrees_get_bind, congrArg List.length h.assigners_eq]
  dsimp only
  split
  · exact ⟨rfl, { h with pool_eq := rfl }⟩
  · exact ⟨rfl, h⟩

omit [Scalar α] in
theorem clearCheckpoint_uniform (plan : Plan α) :
    Step.Uniform (Session.Twins plan.settings) (clearCheckpoint plan) := by
  intro s t h
  unfold clearCheckpoint
  split
  · have h' : Session.Twins plan.settings { s with slot := s.slot.delete.2 }
        { t with slot := t.slot.delete.2 } := { h with slots := h.slots.delete }
    simp only [Step.agrees_get_bind, h.slots.delete_eq, Step.agrees_set_bind]
    exact Step.Uniform.ofOutcome _ _ _ h'
  · exact ⟨rfl, h⟩

/-- From twins, whatever barriers they have been left with, the rounds come to the same. -/
theorem iterate_agrees (hm : plan.measure.Stateless)
    (h : ∀ barrier, Session.Twins plan.settings { s with barrier } { t with barrier })
    (centroids : Tensor α) (first : Int) (handedOut : Bool) :
    (iterate plan centroids first handedOut).Agrees (iterate plan centroids first handedOut) s t
      (fun r r' _ _ => r'.findings = r.findings) (fun _ _ => True) := by
  have hparties : t.assigners.length = s.assigners.length :=
    congrArg List.length (h none).assigners_eq
  simp only [iterate, Step.agrees_get_bind, hparties]
  refine Step.agrees_ofOutcome_bind (fun barrier _ => ?_) True.intro
  simp only [Step.agrees_set_bind, Step.agrees_get_bind]
  -- the criteria give up on the run at the same round
  obtain ⟨⟨-, last, hlast⟩, ⟨-, last', hlast'⟩⟩ := And.intro (h none).left (h none).right
  have hhorizon : t.criterion.horizon first.toNat = s.criterion.horizon first.toNat := by
    rw [show t.criterion = _ from hlast', show s.criterion = _ from hlast,
      Criterion.horizon_remembering, Criterion.horizon_remembering]
  rw [hhorizon]
  refine .bind (Step.agrees_thenRelease ?_)
  refine .bind ((openPool_uniform plan _ _ (h (some barrier))).mono (fun _ _ s₁ t₁ h₁ => ?_)
    fun _ _ _ => True.intro)
  refine (rounds_agrees hm first _ (.refl _) h₁.related).mono (fun last last' s₂ t₂ h₂ => ?_)
    fun _ _ _ => True.intro
  obtain ⟨hsame, h₂⟩ := h₂
  have hreleased : Session.Twins plan.settings s₂.release t₂.release :=
    { h₂ with assigners_eq := congrArg (List.map Assigner.terminate) h₂.assigners_eq, pool_eq := rfl }
  refine .bind ((clearCheckpoint_uniform plan _ _ hreleased).mono (fun _ _ s₃ t₃ h₃ => ?_)
    fun _ _ _ => True.intro)
  rw [hsame]
  simp only [Step.agrees_note_bind, Step.agrees_get_bind, Step.agrees_pure, RunResult.findings,
    h₃.related.inertia_eq]

/-- Two sessions of controllers with the settings of the plan, whatever has been left in them. -/
theorem run_agrees (hm : plan.measure.Stateless) (hs : s.SetFor plan.settings)
    (ht : t.SetFor plan.settings) (hpool : t.pool = s.pool) (hslots : s.slot.Parallel t.slot)
    (partitions : List (Tensor α)) (initial : Tensor α) :
    (run plan partitions initial).Agrees (run plan partitions initial) s t
      (fun r r' _ _ => r'.findings = r.findings) (fun _ _ => True) := by
  refine Step.agrees_ofOutcome_bind (fun _ _ => ?_) True.intro
  refine Step.agrees_ofOutcome_bind (fun assigners _ => ?_) True.intro
  rw [Step.agrees_modify_bind, Step.agrees_note_bind]
  -- assigners and inertia have just been replaced, and the barrier will be
  refine iterate_agrees hm (fun barrier => ?_) initial 0 false
  exact ⟨rfl, rfl, rfl, hpool, hslots, hs, ht⟩

end Iteration

/-! ## After any series of requests -/

/-- The session of a new controller. -/
def Plan.anew (plan : Plan α) (slot : Slot α) (clock : Clock) : Session α :=
  .start plan (.ofSettings plan.settings) slot clock

omit [Scalar α] in
theorem Plan.anew_setFor (plan : Plan α) (slot : Slot α) (clock : Clock) :
    (plan.anew slot clock).SetFor plan.settings :=
  ⟨rfl, none, (Criterion.remembering_none plan.settings).symm⟩

namespace Errand

variable {plan : Plan α} {e : Errand α} {s s' : Session α}

/-- A request during which the measure may be another one, such as one that breaks down. -/
def carryOutWith (plan : Plan α) (s : Session α) (e : Measure α × Errand α) :
    Outcome (RunResult α) × Session α :=
  e.2.carryOut { plan with measure := e.1 } s

/-- What a request finds, or how it fails. -/
def found (plan : Plan α) (s : Session α) (e : Errand α) : Outcome (Findings α) :=
  (e.carryOut plan s).1.map RunResult.findings

theorem found_of_ok {r : RunResult α} (h : e.carryOut plan s = (.ok r, s')) :
    e.found plan s = .ok r.findings := by
  rw [found, h]
  rfl

theorem found_of_error {failure : Failure} (h : e.carryOut plan s = (.error failure, s')) :
    e.found plan s = .error failure := by
  rw [found, h]
  rfl

theorem found_eq {t : Session α} {e' : Errand α}
    (h : (e.request.step plan).Agrees (e'.request.step plan)
      { s with slot := e.slot, clock := e.clock } { t with slot := e'.slot, clock := e'.clock }
      (fun r r' _ _ => r'.findings = r.findings) fun _ _ => True) :
    e'.found plan t = e.found plan s := by
  unfold Step.Agrees at h
  cases hs : e.request.step plan { s with slot := e.slot, clock := e.clock } <;>
    cases ht : e'.request.step plan { t with slot := e'.slot, clock := e'.clock } <;>
    rw [hs, ht] at h
  case ok.ok => rw [found_of_ok (carryOut_of_ok hs), found_of_ok (carryOut_of_ok ht), h]
  case error.error =>
    rw [found_of_error (carryOut_of_error hs), found_of_error (carryOut_of_error ht), h.1]
  case ok.error => exact h.elim
  case error.ok => exact h.elim

end Errand

/-- A controller carries nothing over. Whatever it has been asked for, one request after the other,
    and whichever way each of them ended, also by a measure that broke down: the next run finds what
    it finds in a new controller, or fails as it does there. What was left at the place of the
    checkpoint need not be there for the new one, as long as saves and removals end alike. -/
theorem next_run_is_as_new (plan : Plan α) (hm : plan.measure.Stateless) (place : Slot α)
    (began : Clock) (earlier : List (Measure α × Errand α)) (partitions : List (Tensor α))
    (initial : Tensor α) {slot slot' : Slot α} (hslots : slot'.Parallel slot)
    (clock clock' : Clock) :
    Errand.found plan (History.after (Errand.carryOutWith plan) (plan.anew place began) earlier)
        ⟨.run partitions initial, slot, clock⟩
      = Errand.found plan (plan.anew slot' clock') ⟨.run partitions initial, slot', clock'⟩ := by
  have hkept : (History.after (Errand.carryOutWith plan) (plan.anew place began) earlier).SetFor
        plan.settings ∧
      (History.after (Errand.carryOutWith plan) (plan.anew place began) earlier).pool = none :=
    History.invariant (I := fun _ (s : Session α) => s.SetFor plan.settings ∧ s.pool = none)
      ⟨plan.anew_setFor place began, rfl⟩ fun _ s e _ h =>
        ⟨e.2.carryOut_setFor _ h.1, (e.2.carryOut_leaves _ h.2).pool_eq h.2⟩
  obtain ⟨hset, hpool⟩ := hkept
  refine Errand.found_eq (run_agrees hm ?_ ?_ ?_ ?_ partitions initial)
  · exact plan.anew_setFor slot' clock'
  · exact hset
  · exact hpool
  · exact hslots

/-! ## A run that was broken off -/

omit [Scalar α] in
theorem Slot.Usable.parallel {a b : Slot α} (ha : a.Usable) (hb : b.Usable) : a.Parallel b := by
  obtain ⟨hwritable, _, hdelete⟩ := ha
  obtain ⟨hwritable', _, hdelete'⟩ := hb
  exact ⟨fun n => by rw [hwritable, hwritable'], by rw [hdelete, hdelete']⟩

namespace Attempt

variable {a : Attempt α} {slot : Slot α} {partitions : List (Tensor α)} {initial : Tensor α}
  {s : Session α} (hcriterion : a.criterion = .ofSettings a.plan.settings) (hcalls : a.calls = 0)

include hcriterion hcalls

omit [Scalar α] in
theorem session_eq_anew : a.session slot = a.plan.anew slot a.clock := by
  rw [session, hcriterion, hcalls]
  rfl

/-- An attempt by a new controller is its first request. -/
theorem carryOut_of_ok {r : RunResult α} (h : a.run slot partitions initial = .ok r s) :
    Errand.carryOut a.plan (a.plan.anew slot a.clock) ⟨.run partitions initial, slot, a.clock⟩
      = (.ok r, s) := by
  rw [run, session_eq_anew hcriterion hcalls] at h
  exact Errand.carryOut_of_ok h

theorem carryOut_of_error {e : Failure} (h : a.run slot partitions initial = .error e s) :
    Errand.carryOut a.plan (a.plan.anew slot a.clock) ⟨.run partitions initial, slot, a.clock⟩
      = (.error e, s) := by
  rw [run, session_eq_anew hcriterion hcalls] at h
  exact Errand.carryOut_of_error h

end Attempt

namespace Sample

/-- The run of the task is asked for, and the measure is lost in its second round. -/
def lostRun : Measure Rat × Errand Rat :=
  (task.measure.failingAt 3 "worker lost", ⟨.run task.points initial, place, .stepping 0⟩)

/-- The controller that is left behind. -/
def used : Session Rat :=
  History.after (Errand.carryOutWith (attempt task.measure).plan)
    ((attempt task.measure).plan.anew place (.stepping 0)) [lostRun]

end Sample

/-- The run is asked for again while the checkpoint of the broken one is still there. -/
theorem next_run_is_as_new_sample : ∃ z r,
    Sample.used.slot.held = .snapshot z ∧
    Errand.found (Sample.attempt Sample.task.measure).plan Sample.used
        ⟨.run Sample.task.points Sample.initial, Sample.used.slot, .stepping 1⟩ = .ok r ∧
    Errand.found (Sample.attempt Sample.task.measure).plan
        ((Sample.attempt Sample.task.measure).plan.anew Sample.place (.stepping 0))
        ⟨.run Sample.task.points Sample.initial, Sample.place, .stepping 0⟩ = .ok r := by
  have hlost : (Sample.task.measure.failingAt 3 "worker lost").Follows Sample.task.measure :=
    (Measure.stateless_euclidean _).failingAt_follows 3 _
  obtain ⟨e, s, hcrash, hsaved⟩ : ∃ e s,
      (Sample.attempt (Sample.task.measure.failingAt 3 "worker lost")).run Sample.place
        Sample.task.points Sample.initial = .error e s ∧
      Sample.place.saves < s.slot.saves := by
    apply Sample.exists_error
    decide +kernel
  have hused : Sample.used = s := by
    rw [Sample.used, History.after, History.after, Errand.carryOutWith]
    exact congrArg Prod.snd
      (Attempt.carryOut_of_error (a := Sample.attempt Sample.lostRun.1) rfl rfl hcrash)
  obtain ⟨husable, z, -, -, -, hheld⟩ := Crashed.records Sample.accepted rfl Nat.one_pos
    Sample.usable_place (.first (Sample.attempt_tries hlost) hcrash hsaved)
  obtain ⟨r, s', hrun⟩ : ∃ r s', (Sample.attempt Sample.task.measure).run Sample.place
      Sample.task.points Sample.initial = .ok r s' := by
    apply Sample.exists_ok
    decide +kernel
  have hnew : Errand.found (Sample.attempt Sample.task.measure).plan
      ((Sample.attempt Sample.task.measure).plan.anew Sample.place (.stepping 0))
      ⟨.run Sample.task.points Sample.initial, Sample.place, .stepping 0⟩ = .ok r.findings := by
    exact Errand.found_of_ok
      (Attempt.carryOut_of_ok (a := Sample.attempt Sample.task.measure) rfl rfl hrun)
  refine ⟨z, r.findings, by rw [hused, hheld], ?_, hnew⟩
  rw [← hnew]
  refine next_run_is_as_new _ (Measure.stateless_euclidean _) Sample.place (.stepping 0)
    [Sample.lostRun] Sample.task.points Sample.initial ?_ (.stepping 1) (.stepping 0)
  rw [hused]
  exact Sample.usable_place.parallel husable

end ClusterRounds
