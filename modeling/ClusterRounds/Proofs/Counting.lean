/-
  ClusterRounds.Proofs.Counting

  How many rounds a run takes, and when it has converged. A round asks the criterion once,
  about the centroids that it has formed, and records one inertia; nothing else in a run
  does either. So what a run returns can be told from the centroids of its rounds alone:
  it stops in the first round that reaches the limit or changes the centroids by less than
  the tolerance, and it has converged if that round did the latter. This holds of every run
  that returns, from the first round or from any snapshot.
-/

import ClusterRounds.Proofs.Unfailing
import Mathlib.Logic.Function.Basic
import Mathlib.Order.Bounds.Defs

namespace ClusterRounds

variable {α : Type}

/-! ## What rounds are counted by -/

/-- The round and the centroids about which the criterion was asked. -/
def Event.question? : Event α → Option (Int × Tensor α)
  | .asked round centroids _ => some (round, centroids)
  | _ => none

namespace Session

/-- Everything about which the criterion has been asked. -/
def questions (s : Session α) : List (Int × Tensor α) := s.journal.filterMap Event.question?

/-- The criterion has not been asked, and no inertia has been recorded. -/
structure SameCounts (s t : Session α) : Prop where
  criterion_eq : t.criterion = s.criterion
  inertia_eq : t.inertia = s.inertia
  questions_eq : t.questions = s.questions

variable {s t u : Session α}

theorem SameCounts.refl (s : Session α) : s.SameCounts s := ⟨rfl, rfl, rfl⟩

theorem SameCounts.trans (h : s.SameCounts t) (h' : t.SameCounts u) : s.SameCounts u :=
  ⟨h'.criterion_eq.trans h.criterion_eq, h'.inertia_eq.trans h.inertia_eq,
    h'.questions_eq.trans h.questions_eq⟩

theorem SameElse.sameCounts (h : s.SameElse t) : s.SameCounts t :=
  ⟨h.criterion_eq, h.inertia_eq, congrArg (List.filterMap Event.question?) h.journal_eq⟩

theorem questions_of_journal {e : Event α} (h : t.journal = s.journal ++ [e]) :
    t.questions = s.questions ++ e.question?.toList := by
  unfold questions
  rw [h, List.filterMap_append]
  cases he : e.question? <;> simp [he]

theorem SameCounts.atClock (h : s.SameCounts t) (clock : Clock) : s.SameCounts { t with clock } :=
  ⟨h.criterion_eq, h.inertia_eq, h.questions_eq⟩

/-- Another event is noted. -/
theorem SameCounts.note (h : s.SameCounts t) {e : Event α} (he : e.question? = none) :
    s.SameCounts { t with journal := t.journal ++ [e] } :=
  h.trans ⟨rfl, rfl, (questions_of_journal rfl).trans (by rw [he]; exact List.append_nil _)⟩

end Session

/-! ## Steps that do not count -/

namespace Iteration

section Frames

variable (plan : Plan α) (s : Session α)

theorem broadcast_sameCounts (centroids : Tensor α) :
    (broadcast centroids).Ends s (fun _ s' => s.SameCounts s') (fun _ _ => True) := by
  simp only [broadcast, Step.ends_bind, Step.ends_get]
  exact Step.ends_ofOutcome_of (fun _ _ => ⟨rfl, rfl, rfl⟩) fun _ _ => True.intro

theorem checkpoint_sameCounts (epoch : Int) (centroids : Tensor α) :
    (checkpoint plan epoch centroids).Ends s (fun _ s' => s.SameCounts s') (fun _ _ => True) := by
  unfold checkpoint
  split
  · exact .refl s
  · split
    · simp only [takeSnapshot, save, Step.ends_bind, Step.ends_get, Step.ends_set, Step.ends_pure,
        Step.ends_note]
      refine Step.ends_ofOutcome_of (fun stored _ => ?_) fun _ _ => True.intro
      refine Step.ends_ofOutcome_of (fun _ _ => ?_) fun _ _ => True.intro
      refine Session.SameCounts.note (e := .saved _ _) ?_ rfl
      exact ⟨rfl, rfl, rfl⟩
    · exact .refl s

theorem prepare_sameCounts (here : Standing α) :
    (prepare plan here).Ends s (fun _ s' => s.SameCounts s') (fun _ _ => True) := by
  unfold prepare
  split
  · rw [Step.ends_bind]
    refine (broadcast_sameCounts s here.centroids).mono (fun _ s' h => ?_) fun _ _ h => h
    exact (checkpoint_sameCounts plan s' here.epoch here.centroids).mono
      (fun _ _ h' => h.trans h') fun _ _ h => h
  · exact .refl s

theorem announce_sameCounts (first : Int) (stop : Bool) (report : RoundReport α) :
    (announce first stop report).Ends s (fun _ s' => s.SameCounts s') (fun _ _ => True) := by
  unfold announce
  split
  · exact (Session.SameCounts.refl s).note rfl
  · exact .refl s

variable [Scalar α]

theorem update_sameCounts (outputs : List (PartitionOutput α)) (centroids : Tensor α) :
    (update outputs centroids).Ends s (fun _ s' => s.SameCounts s') (fun _ _ => True) := by
  simp only [update, Step.ends_bind, Step.ends_get]
  refine Step.ends_ofOutcome_of (fun merged _ => ?_) fun _ _ => True.intro
  refine Step.ends_ofOutcome_of (fun means _ => ?_) fun _ _ => True.intro
  refine Step.ends_ofOutcome_of (fun collected _ => ?_) fun _ _ => True.intro
  rw [Step.ends_set]
  split
  · rw [Step.ends_bind, Step.ends_note, Step.ends_pure]
    refine Session.SameCounts.note (e := .retained _) ?_ rfl
    exact ⟨rfl, rfl, rfl⟩
  · exact ⟨rfl, rfl, rfl⟩

end Frames

/-! ## One round -/

variable [Scalar α] {plan : Plan α} {here next last : Standing α} {s s' : Session α} {stop : Bool}

/-- What a round adds to that by which rounds are counted. -/
structure CountsOne (plan : Plan α) (here next : Standing α) (stop : Bool) (s s' : Session α) :
    Prop where
  epoch_eq : next.epoch = here.epoch + 1
  timings_eq : next.timings.rounds = here.timings.rounds + 1
  inertia : ∃ x, s'.inertia = s.inertia ++ [x]
  questions_eq : s'.questions = s.questions ++ [(here.epoch + 1, next.centroids)]
  moved : ∃ moved, Quality.shift here.centroids next.centroids = .ok moved
  asked : s.criterion.ask (here.epoch + 1) next.centroids (some here.centroids)
    = (.ok stop, s'.criterion)
  converged_eq : next.converged
    = (s'.criterion.hasConverged || (stop && here.epoch + 1 < plan.settings.maxRounds))

/-- A round asks the criterion once and records one inertia. -/
theorem round_countsOne (first : Int) (here : Standing α) (s : Session α) :
    (round plan first here).Ends s (fun out s' => CountsOne plan here out.1 out.2 s s')
      (fun _ _ => True) := by
  simp only [round, Step.ends_bind]
  refine (prepare_sameCounts plan s here).mono (fun _ s₁ h₁ => ?_) fun _ _ h => h
  apply Step.ends_timed
  intro clock
  refine (firePartitions_sameElse plan here.epoch here.centroids _).mono (fun outputs s₂ h₂ => ?_)
    fun _ _ _ _ => True.intro
  intro assign clock
  apply Step.ends_timed
  intro clock
  refine (update_sameCounts _ outputs here.centroids).mono (fun next s₃ h₃ => ?_)
    fun _ _ _ _ => True.intro
  intro stretch clock
  -- up to here nothing has been counted
  have hsame : s.SameCounts s₃ :=
    ((((h₁.atClock _).trans h₂.sameCounts).atClock _).atClock _).trans h₃
  rw [Step.ends_modify]
  refine Step.ends_ofOutcome_of (fun change hchange => ?_) fun _ _ => True.intro
  rw [ofOperands_eq_ok] at hchange
  simp only [askCriterion, Step.ends_bind, Step.ends_get, Step.ends_set, Step.ends_note]
  refine Step.ends_ofOutcome_of (fun stop hanswer => ?_) fun _ _ => True.intro
  refine (announce_sameCounts _ first stop _).mono (fun _ s₄ h₄ => ?_) fun _ _ h => h
  refine ⟨rfl, rfl, ⟨_, h₄.inertia_eq.trans (congrArg (· ++ [_]) hsame.inertia_eq)⟩, ?_,
    ⟨change, hchange⟩, ?_, ?_⟩
  · rw [h₄.questions_eq, Session.questions_of_journal (s := s₃) rfl]
    exact congrArg (· ++ [_]) hsame.questions_eq
  · rw [← hsame.criterion_eq]
    exact Prod.ext hanswer h₄.criterion_eq.symm
  · rw [h₄.criterion_eq]

end Iteration

/-! ## When a run has to stop -/

section Stopping

variable [Scalar α]

/-- There is a tolerance, and the centroids have changed by less. -/
def Settings.Settled (settings : Settings) (previous next : Tensor α) : Prop :=
  ∃ t moved, settings.tolerance = some t ∧ Quality.shift previous next = .ok moved ∧
    Scalar.isBelow moved t

/-- The round that forms the centroids `C n` out of those before is one to stop in. -/
def Settings.StopsIn (settings : Settings) (C : Int → Tensor α) (n : Int) : Prop :=
  settings.maxRounds ≤ n ∨ settings.Settled (C (n - 1)) (C n)

variable {plan : Plan α} {here next : Iteration.Standing α} {s s' : Session α} {stop : Bool}

/-- The criterion of the settings stops the run in the rounds to stop in, and has converged where
    the centroids are settled. -/
theorem Iteration.CountsOne.stops_iff (h : CountsOne plan here next stop s s') {last : Option α}
    (hc : s.criterion = .remembering plan.settings last) :
    (stop = true ↔ plan.settings.maxRounds ≤ here.epoch + 1 ∨
        plan.settings.Settled here.centroids next.centroids) ∧
      (next.converged = true ↔ plan.settings.Settled here.centroids next.centroids) ∧
      ∃ last', s'.criterion = .remembering plan.settings last' := by
  obtain ⟨moved, hmoved⟩ := h.moved
  have hasked := h.asked
  have hconverged := h.converged_eq
  rw [hc, Criterion.ask_remembering] at hasked
  unfold Settings.Settled
  cases ht : plan.settings.tolerance with
  | none =>
    rw [ht] at hasked
    obtain ⟨hstop, hcriterion⟩ := Prod.mk.inj hasked
    rw [Except.ok.injEq] at hstop
    have hnever : (Criterion.remembering plan.settings last).hasConverged = false := by
      simp [Criterion.remembering, ht, Criterion.hasConverged]
    rw [← hcriterion, hnever, ← hstop] at hconverged
    refine ⟨by simp [← hstop], ?_, last, hcriterion.symm⟩
    simp [hconverged]
  | some t =>
    rw [ht, hmoved] at hasked
    obtain ⟨hstop, hcriterion⟩ := Prod.mk.inj hasked
    rw [Except.ok.injEq] at hstop
    have hbelow : (Criterion.remembering plan.settings (some moved)).hasConverged
        = Scalar.isBelow moved t := by
      simp [Criterion.remembering, ht, Criterion.hasConverged, Criterion.anyConverged]
    rw [← hcriterion, hbelow, ← hstop] at hconverged
    -- below the limit it is the change that stops the run
    have hsettled : next.converged = Scalar.isBelow moved t := by
      rw [hconverged]
      by_cases hlimit : (plan.settings.maxRounds : Int) ≤ here.epoch + 1
      · simp [Int.not_lt.2 hlimit]
      · simp [hlimit, Int.not_le.1 hlimit]
    exact ⟨by simp [← hstop, hmoved], by simp [hsettled, hmoved], some moved, hcriterion.symm⟩

end Stopping

/-! ## All rounds of a run -/

section Counted

variable [Scalar α]

/-- A run has taken `count` rounds from a round on, the last of which is the first to stop in. The
    centroids before the rounds and after each of them are those of `C`. -/
structure Counted (settings : Settings) (C : Int → Tensor α) (first : Int) (count : Nat)
    (earlier : List α) (s s' : Session α) (r : RunResult α) : Prop where
  least : IsLeast {n | first < n ∧ settings.StopsIn C n} r.rounds
  rounds_eq : r.rounds = first + count
  centroids_eq : r.centroids = C r.rounds
  moved : ∀ n, first < n → n ≤ r.rounds → ∃ moved, Quality.shift (C (n - 1)) (C n) = .ok moved
  converged_iff : r.converged ↔ settings.Settled (C (r.rounds - 1)) (C r.rounds)
  questions_eq : s'.questions = s.questions ++
    (List.range count).map fun (i : Nat) => (first + i + 1, C (first + i + 1))
  inertia : ∃ added, r.inertia = earlier ++ added ∧ added.length = count

/-- Sessions in which the same questions were asked count the same. -/
theorem Counted.of_questions {settings : Settings} {C : Int → Tensor α} {first : Int} {count : Nat}
    {earlier : List α} {s s' t t' : Session α} {r : RunResult α}
    (h : Counted settings C first count earlier s s' r) (hs : t.questions = s.questions)
    (hs' : t'.questions = s'.questions) : Counted settings C first count earlier t t' r :=
  { h with questions_eq := by rw [hs', h.questions_eq, hs] }

namespace Iteration

/-- The result of a run whose rounds end at a standing. -/
def Standing.result (last : Standing α) (s : Session α) : RunResult α :=
  ⟨last.centroids, last.epoch, last.converged, last.labels, s.inertia, last.timings⟩

/-- The centroids after each round, with those of a standing before the first of them. -/
def Standing.prepend (here : Standing α) (C : Int → Tensor α) : Int → Tensor α :=
  Function.update C here.epoch here.centroids

variable {plan : Plan α} {here next : Standing α} {s s₁ s' : Session α} {last : Option α}
  {C : Int → Tensor α} {count : Nat} {r : RunResult α}

omit [Scalar α] in
theorem Standing.prepend_epoch : here.prepend C here.epoch = here.centroids :=
  Function.update_self ..

omit [Scalar α] in
theorem Standing.prepend_of_lt {n : Int} (h : here.epoch < n) : here.prepend C n = C n :=
  Function.update_of_ne (Int.ne_of_gt h) ..

/-- The round was the last. -/
theorem CountsOne.counted_last (h : CountsOne plan here next true s s₁)
    (hc : s.criterion = .remembering plan.settings last) :
    Counted plan.settings (here.prepend fun _ => next.centroids) here.epoch 1 s.inertia s s₁
      (next.result s₁) := by
  obtain ⟨hstop, hconverged, -⟩ := h.stops_iff hc
  have hafter : here.prepend (fun _ => next.centroids) (here.epoch + 1) = next.centroids :=
    Standing.prepend_of_lt (Int.lt_succ _)
  have hrounds : (next.result s₁).rounds = here.epoch + 1 := h.epoch_eq
  constructor
  case least =>
    rw [hrounds]
    refine ⟨⟨Int.lt_succ _, ?_⟩, fun n hn => hn.1⟩
    rw [Settings.StopsIn, Int.add_sub_cancel, Standing.prepend_epoch, hafter]
    exact hstop.1 rfl
  case rounds_eq => exact hrounds
  case centroids_eq =>
    rw [hrounds, hafter]
    rfl
  case moved =>
    intro n hn hle
    obtain rfl : n = here.epoch + 1 := by omega
    rw [Int.add_sub_cancel, Standing.prepend_epoch, hafter]
    exact h.moved
  case converged_iff =>
    rw [hrounds, Int.add_sub_cancel, Standing.prepend_epoch, hafter]
    exact hconverged
  case questions_eq =>
    rw [h.questions_eq, List.range_one, List.map_singleton, Int.ofNat_zero, Int.add_zero, hafter]
  case inertia =>
    obtain ⟨x, hx⟩ := h.inertia
    exact ⟨[x], hx, rfl⟩

/-- The rounds went on, and were counted from the next one. -/
theorem CountsOne.counted_cons (h : CountsOne plan here next false s s₁)
    (hc : s.criterion = .remembering plan.settings last) (hstart : C next.epoch = next.centroids)
    (hrest : Counted plan.settings C next.epoch count s₁.inertia s₁ s' r) :
    Counted plan.settings (here.prepend C) here.epoch (count + 1) s.inertia s s' r := by
  obtain ⟨hstop, -, -⟩ := h.stops_iff hc
  have hepoch := h.epoch_eq
  have hnext : here.prepend C (here.epoch + 1) = next.centroids := by
    rw [Standing.prepend_of_lt (Int.lt_succ _), ← hepoch, hstart]
  -- the round at hand is not one to stop in, and about the later ones nothing changes
  have hgoesOn : ¬ plan.settings.StopsIn (here.prepend C) (here.epoch + 1) := by
    rw [Settings.StopsIn, Int.add_sub_cancel, Standing.prepend_epoch, hnext, ← hstop]
    exact Bool.false_ne_true
  have hlater : ∀ n, next.epoch < n → here.prepend C n = C n ∧ here.prepend C (n - 1) = C (n - 1) :=
    fun n hn => ⟨Standing.prepend_of_lt (by omega), Standing.prepend_of_lt (by omega)⟩
  have hagree : ∀ n, next.epoch < n →
      (plan.settings.StopsIn (here.prepend C) n ↔ plan.settings.StopsIn C n) := by
    intro n hn
    rw [Settings.StopsIn, Settings.StopsIn, (hlater n hn).1, (hlater n hn).2]
  have hmore : next.epoch < r.rounds := hrest.least.1.1
  constructor
  case least =>
    refine ⟨⟨by omega, (hagree _ hmore).2 hrest.least.1.2⟩, fun n hn => ?_⟩
    have hne : n ≠ here.epoch + 1 := by
      rintro rfl
      exact hgoesOn hn.2
    have hfar : next.epoch < n := by
      have := hn.1
      omega
    exact hrest.least.2 ⟨hfar, (hagree n hfar).1 hn.2⟩
  case rounds_eq =>
    rw [hrest.rounds_eq, hepoch]
    omega
  case centroids_eq =>
    rw [(hlater _ hmore).1]
    exact hrest.centroids_eq
  case moved =>
    intro n hn hle
    by_cases hfirst : n = here.epoch + 1
    · rw [hfirst, Int.add_sub_cancel, Standing.prepend_epoch, hnext]
      exact h.moved
    · have hfar : next.epoch < n := by omega
      rw [(hlater n hfar).1, (hlater n hfar).2]
      exact hrest.moved n hfar hle
  case converged_iff =>
    rw [(hlater _ hmore).1, (hlater _ hmore).2]
    exact hrest.converged_iff
  case questions_eq =>
    rw [hrest.questions_eq, h.questions_eq, List.range_succ_eq_map, List.map_cons, List.map_map,
      List.append_assoc, List.singleton_append, Int.ofNat_zero, Int.add_zero, hnext]
    refine congrArg (s.questions ++ ·) (congrArg (List.cons _) (List.map_congr_left fun i _ => ?_))
    have hround : next.epoch + i + 1 = here.epoch + (i + 1 : Nat) + 1 := by omega
    rw [Function.comp, ← hround, (hlater _ (by omega)).1]
  case inertia =>
    obtain ⟨x, hx⟩ := h.inertia
    obtain ⟨added, hadded, hlength⟩ := hrest.inertia
    refine ⟨x :: added, ?_, by rw [List.length_cons, hlength]⟩
    rw [hadded, hx, List.append_assoc]
    rfl

/-- The rounds of a run, however many there may be. -/
theorem rounds_counted (first : Int) :
    ∀ (fuel : Nat) {here : Standing α} {s : Session α},
      (∃ last, s.criterion = .remembering plan.settings last) →
      (rounds plan first fuel here).Ends s
        (fun last s' => ∃ C count, C here.epoch = here.centroids ∧
          Counted plan.settings C here.epoch count s.inertia s s' (last.result s') ∧
          last.timings.rounds = here.timings.rounds + count)
        (fun _ _ => True)
  | 0, _, _, _ => True.intro
  | fuel + 1, here, s, hcriterion => by
    obtain ⟨last, hlast⟩ := hcriterion
    simp only [rounds, Step.ends_bind]
    refine (round_countsOne first here s).mono (fun out s₁ h => ?_) fun _ _ h => h
    have htimings := h.timings_eq
    split
    · rename_i hstop
      rw [hstop] at h
      exact ⟨_, 1, Standing.prepend_epoch, h.counted_last hlast, htimings⟩
    · rename_i hstop
      rw [Bool.eq_false_iff.2 hstop] at h
      refine (rounds_counted first fuel (h.stops_iff hlast).2.2).mono (fun last s₂ hs₂ => ?_)
        fun _ _ h => h
      obtain ⟨C, count, hstart, hcounted, htimings'⟩ := hs₂
      exact ⟨_, count + 1, Standing.prepend_epoch, h.counted_cons hlast hstart hcounted, by omega⟩

end Iteration

end Counted

/-! ## Whole runs -/

namespace Iteration

section Frames

variable (plan : Plan α) (s : Session α)

theorem start_sameCounts (partitions : List (Tensor α)) (initial : Tensor α) :
    (start plan partitions initial).Ends s
      (fun _ s' => ({ s with inertia := [] } : Session α).SameCounts s') (fun _ _ => True) := by
  simp only [start, Step.ends_bind, Step.ends_modify]
  refine Step.ends_ofOutcome_of (fun _ _ => ?_) fun _ _ => True.intro
  refine Step.ends_ofOutcome_of (fun assigners _ => ?_) fun _ _ => True.intro
  refine Session.SameCounts.note (e := .started _ _ _) ?_ rfl
  exact ⟨rfl, rfl, rfl⟩

theorem snapshotFor_same (given : Option (Snapshot α)) :
    (snapshotFor plan given).Ends s (fun z s' => s' = s ∧ ∀ y, given = some y → z = y)
      (fun _ _ => True) := by
  cases given with
  | some z =>
    simp only [snapshotFor, Step.ends_bind]
    exact Step.ends_ofOutcome_of (fun _ _ => ⟨rfl, fun y hy => Option.some.inj hy⟩)
      fun _ _ => True.intro
  | none =>
    simp only [snapshotFor]
    split
    · exact True.intro
    · simp only [Step.ends_bind, Step.ends_get]
      refine Step.ends_ofOutcome_of (fun _ _ => ⟨rfl, fun y hy => ?_⟩) fun _ _ => True.intro
      cases hy

theorem restoreAll_sameCounts (entries : List (Int × PartitionSnapshot α)) :
    (entries.forM restorePartition).Ends s (fun _ s' => s.SameCounts s') (fun _ _ => True) := by
  refine Step.ends_forM (I := fun _ s' => s.SameCounts s') (.refl s)
    fun done entry rest s' _ h => ?_
  simp only [restorePartition, Step.ends_bind, Step.ends_note, Step.ends_modify]
  refine Step.ends_ofOutcome_of (fun _ _ => ?_) fun _ _ => True.intro
  exact (h.note (e := .restored _ _ _ _) rfl).trans ⟨rfl, rfl, rfl⟩

theorem takeUp_sameCounts (given : Option (Snapshot α)) :
    (takeUp plan given).Ends s
      (fun z s' => snapshotFor plan given s = .ok z s ∧
        ({ s with inertia := z.inertia } : Session α).SameCounts s')
      (fun _ _ => True) := by
  rw [takeUp, Step.ends_bind]
  refine (snapshotFor_same plan s given).and_eq.mono (fun z s' hz => ?_) fun _ _ h => h
  obtain ⟨⟨rfl, -⟩, hz⟩ := hz
  split
  · exact True.intro
  · simp only [Step.ends_bind, Step.ends_modify, Step.ends_note, Step.ends_pure]
    refine (restoreAll_sameCounts _ z.ordered).mono (fun _ s'' h => ⟨hz, ?_⟩) fun _ _ h => h
    refine Session.SameCounts.note (t := { s'' with inertia := z.inertia }) ?_ rfl
    exact ⟨h.criterion_eq, rfl, h.questions_eq⟩

theorem enter_sameCounts :
    (enter plan).Ends s (fun _ s' => s.SameCounts s') (fun _ _ => True) := by
  simp only [enter, Step.ends_bind, Step.ends_get, Step.ends_set]
  refine Step.ends_ofOutcome_of (fun barrier _ => ?_) fun _ _ => True.intro
  refine (openPool_ends plan _).mono (fun _ s' hs' => ?_) fun _ _ _ => True.intro
  obtain ⟨pool, rfl⟩ := hs'
  exact ⟨rfl, rfl, rfl⟩

theorem finish_result (last : Standing α) :
    (finish plan last).Ends s (fun r s' => r = last.result s' ∧ s.SameCounts s')
      (fun _ _ => True) := by
  simp only [finish, clearCheckpoint, Step.ends_bind, Step.ends_note, Step.ends_get, Step.ends_pure]
  split
  · simp only [Step.ends_bind, Step.ends_get, Step.ends_set]
    refine Step.ends_ofOutcome_of (fun _ _ => ⟨rfl, ?_⟩) fun _ _ => True.intro
    refine Session.SameCounts.note (e := .finished _) ?_ rfl
    exact ⟨rfl, rfl, rfl⟩
  · exact ⟨rfl, (Session.SameCounts.refl s).note rfl⟩

end Frames

variable [Scalar α] {plan : Plan α} {s : Session α}

/-- The rounds from a round on, with all that surrounds them. -/
theorem iterate_counted (centroids : Tensor α) (first : Int) (handedOut : Bool)
    (hcriterion : ∃ last, s.criterion = .remembering plan.settings last) :
    (iterate plan centroids first handedOut).Ends s
      (fun r s' => ∃ C count, C first = centroids ∧
        Counted plan.settings C first count s.inertia s s' r ∧ r.timings.rounds = count)
      (fun _ _ => True) := by
  refine ends_iterate ((enter_sameCounts plan s).mono (fun _ s₁ h₁ => ?_)
    fun _ _ _ => ⟨True.intro, True.intro⟩)
  refine (rounds_counted first _ (h₁.criterion_eq ▸ hcriterion)).mono (fun last s₂ hs₂ => ?_)
    fun _ _ h => h
  obtain ⟨C, count, hstart, hcounted, htimings⟩ := hs₂
  refine (finish_result plan s₂.release last).mono (fun r s₃ hs₃ => ?_) fun _ _ h => h
  obtain ⟨rfl, h₃⟩ := hs₃
  have hresult : last.result s₃ = last.result s₂ := by
    rw [Standing.result, Standing.result, show s₃.inertia = s₂.inertia from h₃.inertia_eq]
  rw [hresult]
  rw [h₁.inertia_eq] at hcounted
  exact ⟨C, count, hstart, hcounted.of_questions h₁.questions_eq.symm h₃.questions_eq,
    htimings.trans (Nat.zero_add count)⟩

/-- A run from the first round. -/
theorem run_counted (partitions : List (Tensor α)) (initial : Tensor α)
    (hcriterion : ∃ last, s.criterion = .remembering plan.settings last) :
    (run plan partitions initial).Ends s
      (fun r s' => ∃ C count, C 0 = initial ∧ Counted plan.settings C 0 count [] s s' r ∧
        r.timings.rounds = count)
      (fun _ _ => True) := by
  rw [run_eq_bind, Step.ends_bind]
  refine (start_sameCounts plan s partitions initial).mono (fun _ s₁ h₁ => ?_) fun _ _ h => h
  refine (iterate_counted initial 0 false (h₁.criterion_eq ▸ hcriterion)).mono
    (fun r s₂ hs₂ => ?_) fun _ _ h => h
  obtain ⟨C, count, hstart, hcounted, htimings⟩ := hs₂
  rw [h₁.inertia_eq] at hcounted
  exact ⟨C, count, hstart, hcounted.of_questions h₁.questions_eq.symm rfl, htimings⟩

/-- A run from a snapshot. -/
theorem resume_counted (given : Option (Snapshot α))
    (hcriterion : ∃ last, s.criterion = .remembering plan.settings last) :
    (resume plan given).Ends s
      (fun r s' => ∃ z C count, snapshotFor plan given s = .ok z s ∧ C z.epoch = z.centroids ∧
        Counted plan.settings C z.epoch count z.inertia s s' r ∧ r.timings.rounds = count)
      (fun _ _ => True) := by
  rw [resume_eq_bind, Step.ends_bind]
  refine (takeUp_sameCounts plan s given).mono (fun z s₁ hs₁ => ?_) fun _ _ h => h
  obtain ⟨hz, h₁⟩ := hs₁
  refine (iterate_counted z.centroids z.epoch true (h₁.criterion_eq ▸ hcriterion)).mono
    (fun r s₂ hs₂ => ?_) fun _ _ h => h
  obtain ⟨C, count, hstart, hcounted, htimings⟩ := hs₂
  rw [h₁.inertia_eq] at hcounted
  exact ⟨z, C, count, hz, hstart, hcounted.of_questions h₁.questions_eq.symm rfl, htimings⟩

end Iteration

/-- A run that returns has stopped in the first round that reaches the limit or changes the centroids
    by less than the tolerance, whatever the criterion remembers of runs before; it has asked the
    criterion once in each round, and all its counts are those of its rounds. Over accepted inputs,
    with a measure that answers, it does return. A run from a snapshot goes by the same rule, from the
    round of the snapshot on. -/
theorem runs_stop_in_time [Scalar α] (plan : Plan α) (s : Session α)
    (hcriterion : ∃ last, s.criterion = .remembering plan.settings last) :
    (∀ partitions initial r s', Iteration.run plan partitions initial s = .ok r s' →
      ∃ C count, C 0 = initial ∧ Counted plan.settings C 0 count [] s s' r ∧
        r.timings.rounds = count) ∧
    (∀ partitions initial width, Able plan.settings plan s →
      Iteration.checkInputs plan.settings partitions initial = .ok () →
      initial.shape = [plan.settings.k, width] → 0 < width →
      ∃ r s', Iteration.run plan partitions initial s = .ok r s') ∧
    (∀ given r s', Iteration.resume plan given s = .ok r s' →
      ∃ z C count, Iteration.snapshotFor plan given s = .ok z s ∧ C z.epoch = z.centroids ∧
        Counted plan.settings C z.epoch count z.inertia s s' r ∧ r.timings.rounds = count) := by
  refine ⟨fun partitions initial r s' hrun => ?_,
    fun partitions initial width hable haccepted hshape hwidth => ?_,
    fun given r s' hresume => ?_⟩
  · exact (Iteration.run_counted partitions initial hcriterion).of_ok hrun
  · have hends := Iteration.run_returns ⟨plan.settings, plan.measure, partitions⟩ hable haccepted
      hshape hwidth
    obtain ⟨r, s', hrun, -⟩ := hends.exists_ok fun _ _ h => h
    exact ⟨r, s', hrun⟩
  · exact (Iteration.resume_counted given hcriterion).of_ok hresume

/-! ## Three rounds, and the last two of them -/

namespace Sample

/-- What is saved of the sample before its second round. -/
def snapshot : Snapshot Rat where
  epoch := 1
  centroids := column [3 / 2, 4]
  partitions :=
    [(0, ⟨0, some (column [0, 3]), [column [3 / 2, 4]], some 0, .known .accumulating⟩),
      (1, ⟨1, some (column [4]), [column [3 / 2, 4]], some 0, .known .accumulating⟩)]
  settings
  inertia := [18]

theorem ordered_snapshot : snapshot.ordered = snapshot.partitions :=
  List.mergeSort_of_pairwise (by decide)

theorem accepted_snapshot : snapshot.validate = .ok () := by
  have hids : snapshot.ids = [0, 1] := List.mergeSort_of_pairwise (by decide)
  simp only [Snapshot.validate, hids]
  rfl

/-- The centroids settle in the third round, long before the limit. -/
theorem run_settles : (Iteration.run (attempt task.measure).plan task.points initial).Ends
    ((attempt task.measure).session place) (fun r _ => r.rounds = 3 ∧ r.converged = true)
    (fun _ _ => False) := by decide +kernel

theorem resume_settles : (Iteration.resume (attempt task.measure).plan (some snapshot)).Ends
    ((attempt task.measure).session place) (fun r _ => r.rounds = 3 ∧ r.converged = true)
    (fun _ _ => False) := by
  simp only [Iteration.resume, Iteration.snapshotFor, accepted_snapshot, Step.ends_bind,
    Step.ends_ofOutcome_ok, Step.ends_pure, ordered_snapshot]
  decide +kernel

end Sample

/-- The sample settles in its third round, and so it does if it is resumed after the first. -/
theorem runs_stop_in_time_sample :
    (∃ r s C, (Sample.attempt Sample.task.measure).run Sample.place Sample.task.points
        Sample.initial = .ok r s ∧ C 0 = Sample.initial ∧
      Counted Sample.settings C 0 3 [] ((Sample.attempt Sample.task.measure).session Sample.place)
        s r ∧
      Sample.settings.Settled (C 2) (C 3) ∧ ¬ Sample.settings.Settled (C 1) (C 2)) ∧
    ∃ r s C, Iteration.resume (Sample.attempt Sample.task.measure).plan (some Sample.snapshot)
        ((Sample.attempt Sample.task.measure).session Sample.place) = .ok r s ∧
      C 1 = Sample.column [3 / 2, 4] ∧
      Counted Sample.settings C 1 2 [18]
        ((Sample.attempt Sample.task.measure).session Sample.place) s r ∧
      Sample.settings.Settled (C 2) (C 3) := by
  have hable := Sample.able (Measure.rowByRow_euclidean "EuclideanDistanceMeasure").answers
  obtain ⟨hrun, hreturns, hresume⟩ := runs_stop_in_time (Sample.attempt Sample.task.measure).plan _
    hable.criterion
  constructor
  · obtain ⟨r, s, hr⟩ := hreturns _ _ 1 hable Sample.accepted (by rfl) Nat.one_pos
    obtain ⟨C, count, hstart, hcounted, -⟩ := hrun _ _ r s hr
    obtain ⟨hthree, hconverged⟩ := Sample.run_settles.of_ok hr
    obtain rfl : count = 3 := by
      have := hcounted.rounds_eq
      omega
    refine ⟨r, s, C, hr, hstart, hcounted, ?_, fun hearly => ?_⟩
    · have hsettled := hcounted.converged_iff.1 hconverged
      rw [hthree] at hsettled
      exact hsettled
    · -- the third round is the first to stop in
      have hle : r.rounds ≤ 2 := hcounted.least.2 ⟨by decide, .inr hearly⟩
      omega
  · obtain ⟨r, s, hr, hthree, hconverged⟩ := Sample.resume_settles.exists_ok fun _ _ h => h
    obtain ⟨z, C, count, hz, hstart, hcounted, -⟩ := hresume _ r s hr
    obtain rfl := ((Iteration.snapshotFor_same _ _ _).of_ok hz).2 _ rfl
    obtain rfl : count = 2 := by
      have hrounds : r.rounds = 1 + (count : Int) := hcounted.rounds_eq
      omega
    have hsettled := hcounted.converged_iff.1 hconverged
    rw [hthree] at hsettled
    exact ⟨r, s, C, hr, hstart, hcounted, hsettled⟩

end ClusterRounds
