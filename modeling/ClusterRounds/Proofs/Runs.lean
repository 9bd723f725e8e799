/-
  ClusterRounds.Proofs.Runs

  Whole runs. A run that returns has found what the rounds of the task come to; a run
  that fails leaves at the place of the checkpoint what it found there or the record of
  a mark it came to; and an undisturbed run only fails if a round of the task does. This
  holds of a run from the first round (`run_ends`) and of one that takes up a recorded
  mark (`resume_ends`), with any number of workers and whatever the criterion is.
-/

import ClusterRounds.Proofs.Stages

namespace ClusterRounds

namespace Iteration

variable {α : Type} [Scalar α] {plan : Plan α} {task : Task α} {mark : Mark α} {width : Nat}
  {s : Session α}

/-! ## The loop -/

/-- The loop takes the rounds of the task. If it fails, the checkpoint holds what it held before or a
    record of a mark that it came to; undisturbed, it only fails if a round of the task does. -/
theorem rounds_ends (hplan : plan.Serves task) (first : Int) :
    ∀ (fuel : Nat) {mark : Mark α} {here : Standing α} {s : Session α},
      task.Shaped width mark.centroids → here.epoch = mark.epoch →
      here.centroids = mark.centroids → Ready task mark here.handedOut s →
      (rounds plan first fuel here).Ends s
        (fun last s' => task.rounds fuel s.criterion mark
            = .ok ⟨last.centroids, last.epoch, last.converged, last.labels, s'.inertia⟩ ∧
          s'.slot.Usable)
        (fun _ s' => (s.criterion.Follows task.settings → s.slot.Kept s'.slot task mark) ∧
          (plan.Calm task → ∀ found, task.rounds fuel s.criterion mark ≠ .ok found))
  | 0, _, _, _, _, _, _, _ => ⟨fun _ => .inl rfl, fun _ _ h => nomatch h⟩
  | fuel + 1, mark, here, s, hshape, hepoch, hcentroids, h => by
    simp only [rounds, Step.ends_bind]
    refine (round_ends hplan hshape first hepoch hcentroids h).mono (fun out s' hs' => ?_)
      fun _ s' hs' => ?_
    · obtain ⟨t, hturn, hstop, hafter, hready, hkept, hasked⟩ := hs'
      split
      · -- the round was the last
        rename_i hout
        refine ⟨?_, hready.slot⟩
        rw [hafter.centroids_eq, hafter.epoch_eq, hafter.converged_eq, hafter.labels_eq,
          hready.inertia]
        exact Task.rounds_of_stop hturn (hstop ▸ hout)
      · rename_i hout
        have hgoesOn : t.stop = false := by rw [← hstop]; exact Bool.eq_false_iff.2 hout
        rw [← hafter.handedOut_eq] at hready
        rw [Task.rounds_of_goesOn hturn hgoesOn, ← hasked]
        refine (rounds_ends hplan first fuel (hshape.turnAsking hturn) hafter.epoch_eq
          hafter.centroids_eq hready).mono (fun last s'' hs'' => hs'') fun _ s'' hs'' => ?_
        refine ⟨fun hc => ?_, hs''.2⟩
        -- a later failure may have left a later record
        obtain ⟨hturn, hc'⟩ := Task.turn_of_turnAsking hc hturn
        rw [← hasked] at hc'
        exact hkept.trans (.round .here hturn hgoesOn) (hs''.1 hc')
    · refine ⟨fun _ => hs'.1, fun hcalm found hfound => ?_⟩
      obtain ⟨t, ht, -⟩ := bind_eq_ok.1 hfound
      exact hs'.2 hcalm t ht

/-! ## From a mark -/

/-- The run from a mark. -/
theorem iterate_ends (hplan : plan.Serves task) (hpoints : task.points ≠ []) (mark : Mark α)
    {handedOut : Bool} (hshape : task.Shaped width mark.centroids)
    (h : Gathered task mark handedOut s) :
    (iterate plan mark.centroids mark.epoch handedOut).Ends s
      (fun r s' => task.course s.criterion mark = .ok r.findings ∧
        (plan.period.isSome → s'.slot.held = .nothing))
      (fun _ s' => (s.criterion.Follows task.settings → s.slot.Kept s'.slot task mark) ∧
        (plan.Calm task → ∀ found, task.course s.criterion mark ≠ .ok found)) := by
  refine ends_iterate ((enter_ends hpoints h).mono (fun _ s₁ hs₁ => ?_) fun _ s₁ hs₁ => ?_)
  · obtain ⟨hready, hslot, hcriterion⟩ := hs₁
    rw [← hcriterion, ← hslot]
    refine (rounds_ends hplan mark.epoch _ hshape rfl rfl hready).mono (fun last s₂ hs₂ => ?_)
      fun _ s₂ hs₂ => hs₂
    have husable : s₂.release.slot.Usable := hs₂.2
    refine (finish_ends plan s₂.release last).mono (fun r s₃ hs₃ => ?_)
      fun _ _ hs₃ => absurd husable.removable hs₃.2
    obtain ⟨rfl, hheld⟩ := hs₃
    exact ⟨hs₂.1, hheld⟩
  · -- there is no pool
    obtain ⟨hslot, hworkers⟩ := hs₁
    have hkept : s.slot.Kept s₁.slot task mark := .inl hslot
    have hnone (hcalm : plan.Calm task) (found : Findings α) :
        task.course s.criterion mark ≠ .ok found := by
      obtain ⟨n, hn⟩ := hcalm.workers
      exact absurd hn (hworkers n)
    exact ⟨⟨fun _ => hkept, hnone⟩, fun _ => hkept, hnone⟩

/-- A run over accepted inputs. -/
theorem run_ends (hplan : plan.Serves task) {initial : Tensor α}
    (haccepted : checkInputs task.settings task.points initial = .ok ())
    (hequipped : Equipped task s) :
    (run plan task.points initial).Ends s
      (fun r s' => task.course s.criterion (.start initial) = .ok r.findings ∧
        (plan.period.isSome → s'.slot.held = .nothing))
      (fun _ s' =>
        (s.criterion.Follows task.settings → s.slot.Kept s'.slot task (.start initial)) ∧
        (plan.Calm task → ∀ found, task.course s.criterion (.start initial) ≠ .ok found)) := by
  obtain ⟨hpoints, width, -, hshape⟩ := shaped_of_checkInputs task.measure haccepted
  rw [run_eq_bind, Step.ends_bind]
  refine (start_ends hplan.settings_eq haccepted hequipped).mono (fun _ s₁ hs₁ => ?_)
    fun _ _ h => h.elim
  obtain ⟨hgathered, hslot, hcriterion⟩ := hs₁
  rw [← hslot, ← hcriterion]
  exact iterate_ends hplan hpoints (.start initial) hshape hgathered

/-- A run that takes up a recorded mark. -/
theorem resume_ends {z : Snapshot α} (hplan : plan.Serves task) (h : z.Records task mark)
    (hshape : task.Shaped width mark.centroids) (hwidth : 0 < width) (hepoch : 0 ≤ mark.epoch)
    (hpoints : task.points ≠ []) (hequipped : Equipped task s)
    (hheld : s.slot.held = .snapshot z) :
    (resume plan none).Ends s
      (fun r s' => task.course s.criterion mark = .ok r.findings ∧
        (plan.period.isSome → s'.slot.held = .nothing))
      (fun _ s' => (s.criterion.Follows task.settings → s.slot.Kept s'.slot task mark) ∧
        (plan.Calm task → plan.period.isSome → task.settings.same task.settings →
          ∀ found, task.course s.criterion mark ≠ .ok found)) := by
  rw [resume_eq_bind, Step.ends_bind]
  refine (takeUp_ends hplan.settings_eq h hshape hwidth hepoch hpoints hequipped
    (.inr ⟨rfl, hheld⟩)).mono (fun z' s₁ hs₁ => ?_) fun _ s₁ hs₁ => ?_
  · obtain ⟨rfl, hgathered, hslot, hcriterion⟩ := hs₁
    rw [h.centroids_eq, h.epoch_eq, ← hslot, ← hcriterion]
    exact (iterate_ends hplan hpoints mark hshape hgathered).mono (fun _ _ hr => hr)
      fun _ _ he => ⟨he.1, fun hcalm _ _ => he.2 hcalm⟩
  · exact ⟨fun _ => .inl hs₁.1, fun _ hperiod hsame => absurd hsame (hs₁.2 fun _ => hperiod)⟩

end Iteration
end ClusterRounds
