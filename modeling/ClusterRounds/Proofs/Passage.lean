/-
  ClusterRounds.Proofs.Passage

  Where a run stands on its way. What is asked of a controller begins with a standing
  before the first round, and rounds that do not stop the run lead from there to the
  next ones (`ComesTo`). Whatever becomes of a request is told by where its run has
  come to: it fails before the first round, in the round before which it stands, or
  behind the last one (`step_comes`). And once it stands before a round that stops
  it, there is only the finish left (`step_eq_finish`).
-/

import ClusterRounds.Proofs.Counting
import ClusterRounds.Proofs.Release

namespace ClusterRounds

variable {α : Type} [Scalar α]

namespace Iteration

/-! ## Rounds that do not stop the run -/

/-- Rounds that do not stop the run lead from one standing to another, and from session to
    session. -/
inductive Passes (plan : Plan α) (first : Int) (here : Standing α) (s : Session α) :
    Standing α → Session α → Prop
  | here : Passes plan first here s here s
  | round {mid next : Standing α} {s₁ s₂ : Session α} (before : Passes plan first here s mid s₁)
      (round : round plan first mid s₁ = .ok (next, false) s₂) : Passes plan first here s next s₂

variable {plan : Plan α} {first : Int} {here mid last : Standing α} {s s₁ s₂ : Session α}

/-- What one round keeps holds wherever rounds lead. -/
theorem Passes.invariant {I : Standing α → Session α → Prop}
    (h : Passes plan first here s mid s₁) (start : I here s)
    (keeps : ∀ {here next : Standing α} {s s' : Session α}, I here s →
      Iteration.round plan first here s = .ok (next, false) s' → I next s') : I mid s₁ := by
  induction h with
  | here => exact start
  | round _ round ih => exact keeps ih round

/-- There is no round between, or a first one. -/
theorem Passes.cases_head (h : Passes plan first here s mid s₁) :
    mid = here ∧ s₁ = s ∨ ∃ next s', Iteration.round plan first here s = .ok (next, false) s' ∧
      Passes plan first next s' mid s₁ := by
  induction h with
  | here => exact .inl ⟨rfl, rfl⟩
  | @round mid next s₁ s₂ _ hround ih =>
    rcases ih with ⟨rfl, rfl⟩ | ⟨next', s', hfirst, hpasses⟩
    · exact .inr ⟨next, s₂, hround, .here⟩
    · exact .inr ⟨next', s', hfirst, hpasses.round hround⟩

/-- Of two standings on the way one lies before the other. -/
theorem Passes.total {far : Standing α} (h : Passes plan first here s mid s₁)
    (h' : Passes plan first here s far s₂) :
    Passes plan first mid s₁ far s₂ ∨ Passes plan first far s₂ mid s₁ := by
  induction h with
  | here => exact .inl h'
  | @round mid next s₁ s₂ _ hround ih =>
    rcases ih with hfar | hmid
    · rcases hfar.cases_head with ⟨rfl, rfl⟩ | ⟨next', s', hfirst, hpasses⟩
      · exact .inr (.round .here hround)
      · rw [hround] at hfirst
        cases hfirst
        exact .inl hpasses
    · exact .inr (hmid.round hround)

theorem Passes.epoch_le (h : Passes plan first here s mid s₁) : here.epoch ≤ mid.epoch := by
  induction h with
  | here => exact Int.le_refl _
  | @round mid next s₁ s₂ _ hround ih =>
    have hnext : next.epoch = mid.epoch + 1 :=
      ((round_countsOne first mid s₁).of_ok hround).epoch_eq
    omega

/-- The loop takes the rounds one after the other. -/
theorem Passes.rounds_eq (h : Passes plan first here s mid s₁) (fuel : Nat) :
    rounds plan first (fuel + (mid.epoch - here.epoch).toNat) here s
      = rounds plan first fuel mid s₁ := by
  induction h generalizing fuel with
  | here => simp
  | @round mid next s₁ s₂ before hround ih =>
    have hle := before.epoch_le
    have hnext : next.epoch = mid.epoch + 1 :=
      ((round_countsOne first mid s₁).of_ok hround).epoch_eq
    have hfuel : fuel + (next.epoch - here.epoch).toNat
        = fuel + 1 + (mid.epoch - here.epoch).toNat := by omega
    rw [hfuel, ih (fuel + 1), rounds]
    show EStateM.bind _ _ s₁ = _
    rw [EStateM.bind, hround]
    rfl

/-- The loop ends with a round that stops it, or fails in a round, or its fuel is used up. -/
theorem rounds_passes (plan : Plan α) (first : Int) (here : Standing α) (s : Session α) :
    ∀ (fuel : Nat) {mid : Standing α} {s₁ : Session α}, Passes plan first here s mid s₁ →
      (rounds plan first fuel mid).Ends s₁
        (fun last s₃ => ∃ mid s₂, Passes plan first here s mid s₂ ∧
          round plan first mid s₂ = .ok (last, true) s₃)
        (fun e s₃ => (∃ mid s₂, Passes plan first here s mid s₂ ∧
          round plan first mid s₂ = .error e s₃) ∨ ∃ mid, Passes plan first here s mid s₃)
  | 0, mid, _, h => .inr ⟨mid, h⟩
  | fuel + 1, mid, s₁, h => by
    simp only [rounds, Step.ends_bind]
    cases hround : round plan first mid s₁ with
    | error e s₂ =>
      rw [Step.Ends, hround]
      exact .inl ⟨mid, s₁, h, hround⟩
    | ok out s₂ =>
      obtain ⟨next, stop⟩ := out
      rw [Step.Ends, hround]
      cases stop with
      | true => exact ⟨mid, s₁, h, hround⟩
      | false => exact rounds_passes plan first here s fuel (h.round hround)

end Iteration

/-! ## What a request comes to -/

namespace Request

open Iteration

/-- What a request does before the first of its rounds; where its run stands then. -/
def opening (plan : Plan α) : Request α → Step α (Standing α)
  | run partitions initial => do
    start plan partitions initial
    enter plan
    return .atStart initial 0 false
  | resume given => do
    let z ← takeUp plan given
    enter plan
    return .atStart z.centroids z.epoch true

/-- The run that is asked for comes to stand before a round. It started before round `first`. -/
def ComesTo (plan : Plan α) (r : Request α) (s : Session α) (first : Int) (here : Standing α)
    (s' : Session α) : Prop :=
  ∃ opened s₁, r.opening plan s = .ok opened s₁ ∧ opened.epoch = first ∧
    Passes plan first opened s₁ here s'

/-- How the run that is asked for can fail. -/
inductive Fails (plan : Plan α) (r : Request α) (s : Session α) (e : Failure) :
    Session α → Prop
  /-- Before its first round; the release may come after that or not. -/
  | opening {s₁ s' : Session α} (opening : r.opening plan s = .error e s₁)
      (left : s' = s₁ ∨ s' = s₁.release) : Fails plan r s e s'
  /-- In a round. -/
  | round {first : Int} {here : Standing α} {s₁ s₂ : Session α}
      (comes : r.ComesTo plan s first here s₁) (round : round plan first here s₁ = .error e s₂) :
      Fails plan r s e s₂.release
  /-- Its criterion has not stopped it for too long. -/
  | endless {first : Int} {here : Standing α} {s₁ : Session α}
      (comes : r.ComesTo plan s first here s₁) : Fails plan r s e s₁.release
  /-- Behind its last round. -/
  | finish {first : Int} {here last : Standing α} {s₁ s₂ s' : Session α}
      (comes : r.ComesTo plan s first here s₁)
      (round : Iteration.round plan first here s₁ = .ok (last, true) s₂)
      (finish : finish plan last s₂.release = .error e s') : Fails plan r s e s'

variable {plan : Plan α} {r : Request α} {s s₁ s₂ : Session α} {first : Int}
  {here last : Standing α}

/-- A request that is opened takes its rounds and finishes. -/
theorem step_of_opening {Q : RunResult α → Session α → Prop} {E : Failure → Session α → Prop}
    (h : (r.opening plan).Ends s
      (fun here s₁ => (rounds plan here.epoch
          ((s.criterion.horizon here.epoch.toNat).getD patience) here).Ends s₁
        (fun last s₂ => (finish plan last).Ends s₂.release Q E) fun e s₂ => E e s₂.release)
      fun e s₁ => E e s₁ ∧ E e s₁.release) :
    (r.step plan).Ends s Q E := by
  cases r with
  | run partitions initial =>
    rw [step, run_eq_bind, Step.ends_bind]
    simp only [opening, Step.ends_bind, Step.ends_pure] at h
    refine ((start_sameCounts plan s partitions initial).and h).mono (fun _ s₁ h₁ => ?_) ?_
    · rw [← show s₁.criterion = s.criterion from h₁.1.criterion_eq] at h₁
      exact ends_iterate h₁.2
    · exact fun _ _ h₁ => h₁.2.1
  | resume given =>
    rw [step, resume_eq_bind, Step.ends_bind]
    simp only [opening, Step.ends_bind, Step.ends_pure] at h
    refine ((takeUp_sameCounts plan s given).and h).mono (fun z s₁ h₁ => ?_) ?_
    · rw [← show s₁.criterion = s.criterion from h₁.1.2.criterion_eq] at h₁
      exact ends_iterate h₁.2
    · exact fun _ _ h₁ => h₁.2.1

/-- A run that has come to a round in which it ends does end there. -/
theorem ComesTo.step_ends {Q : RunResult α → Session α → Prop} {E : Failure → Session α → Prop}
    (h : r.ComesTo plan s first here s₁)
    (hfuel : here.epoch - first < (s.criterion.horizon first.toNat).getD patience)
    (hround : (round plan first here).Ends s₁
      (fun out s₂ => out.2 = true ∧ (finish plan out.1).Ends s₂.release Q E)
      (fun e s₂ => E e s₂.release)) :
    (r.step plan).Ends s Q E := by
  obtain ⟨opened, s₀, hopening, rfl, hpasses⟩ := h
  apply step_of_opening
  rw [Step.Ends, hopening]
  -- the rounds before the last one use up some of the fuel
  obtain ⟨fuel, hsplit⟩ : ∃ fuel, (s.criterion.horizon opened.epoch.toNat).getD patience
      = fuel + 1 + (here.epoch - opened.epoch).toNat :=
    ⟨(s.criterion.horizon opened.epoch.toNat).getD patience
      - 1 - (here.epoch - opened.epoch).toNat, by have := hpasses.epoch_le; omega⟩
  dsimp only
  rw [hsplit, Step.Ends, hpasses.rounds_eq (fuel + 1)]
  show (rounds plan opened.epoch (fuel + 1) here).Ends s₁ _ _
  simp only [rounds, Step.ends_bind]
  refine hround.mono (fun out s₂ h => ?_) fun _ _ h => h
  rw [if_pos h.1]
  exact h.2

/-- Behind a round that stops it there is only the finish left of a run. -/
theorem ComesTo.step_eq_finish (h : r.ComesTo plan s first here s₁)
    (hfuel : here.epoch - first < (s.criterion.horizon first.toNat).getD patience)
    (hround : round plan first here s₁ = .ok (last, true) s₂) :
    r.step plan s = finish plan last s₂.release := by
  have hends : (r.step plan).Ends s
      (fun result s' => finish plan last s₂.release = .ok result s')
      (fun e s' => finish plan last s₂.release = .error e s') := by
    refine h.step_ends hfuel ?_
    rw [Step.Ends, hround]
    refine ⟨rfl, ?_⟩
    cases hfinish : finish plan last s₂.release with
    | ok result s' =>
      rw [Step.Ends, hfinish]
    | error e s' =>
      rw [Step.Ends, hfinish]
  cases hstep : r.step plan s with
  | ok result s' => exact (hends.of_ok hstep).symm
  | error e s' => exact (hends.of_error hstep).symm

theorem ComesTo.round {next : Standing α} (h : r.ComesTo plan s first here s₁)
    (hround : Iteration.round plan first here s₁ = .ok (next, false) s₂) :
    r.ComesTo plan s first next s₂ := by
  obtain ⟨opened, s₀, hopening, hfirst, hpasses⟩ := h
  exact ⟨opened, s₀, hopening, hfirst, hpasses.round hround⟩

/-- The run stands before two rounds only if one of them comes after the other. -/
theorem ComesTo.total {first' : Int} {there : Standing α} (h : r.ComesTo plan s first here s₁)
    (h' : r.ComesTo plan s first' there s₂) : first = first' ∧
      (Passes plan first here s₁ there s₂ ∨ Passes plan first there s₂ here s₁) := by
  obtain ⟨opened, s₀, hopening, rfl, hpasses⟩ := h
  obtain ⟨opened', s₀', hopening', rfl, hpasses'⟩ := h'
  rw [hopening] at hopening'
  cases hopening'
  exact ⟨rfl, hpasses.total hpasses'⟩

/-- There is one round at most that stops the run. -/
theorem ComesTo.unique_last {first' : Int} {there last' : Standing α} {s₃ s₄ : Session α}
    (h : r.ComesTo plan s first here s₁)
    (hround : Iteration.round plan first here s₁ = .ok (last, true) s₃)
    (h' : r.ComesTo plan s first' there s₂)
    (hround' : Iteration.round plan first' there s₂ = .ok (last', true) s₄) :
    first' = first ∧ there = here ∧ s₂ = s₁ := by
  obtain ⟨rfl, hpasses | hpasses⟩ := h.total h'
  · -- no round follows one that stops the run
    rcases hpasses.cases_head with ⟨rfl, rfl⟩ | ⟨_, _, hgoesOn, -⟩
    · exact ⟨rfl, rfl, rfl⟩
    · rw [hround] at hgoesOn
      cases hgoesOn
  · rcases hpasses.cases_head with ⟨rfl, rfl⟩ | ⟨_, _, hgoesOn, -⟩
    · exact ⟨rfl, rfl, rfl⟩
    · rw [hround'] at hgoesOn
      cases hgoesOn

/-- A run that returns has come to a round that stops it; how a run fails is told by where it has
    come to. -/
theorem step_comes (plan : Plan α) (r : Request α) (s : Session α) :
    (r.step plan).Ends s
      (fun result s' => ∃ first here s₁ last s₂, r.ComesTo plan s first here s₁ ∧
        round plan first here s₁ = .ok (last, true) s₂ ∧
        finish plan last s₂.release = .ok result s')
      (fun e s' => r.Fails plan s e s') := by
  apply step_of_opening
  cases hopening : r.opening plan s with
  | error e s₁ =>
    rw [Step.Ends, hopening]
    exact ⟨.opening hopening (.inl rfl), .opening hopening (.inr rfl)⟩
  | ok opened s₁ =>
    rw [Step.Ends, hopening]
    have hcomes {mid : Standing α} {s₂ : Session α}
        (h : Passes plan opened.epoch opened s₁ mid s₂) : r.ComesTo plan s opened.epoch mid s₂ :=
      ⟨opened, s₁, hopening, rfl, h⟩
    refine (rounds_passes plan opened.epoch opened s₁ _ .here).mono (fun last s₃ hs₃ => ?_)
      fun e s₃ hs₃ => ?_
    · obtain ⟨mid, s₂, hpasses, hround⟩ := hs₃
      cases hfinish : finish plan last s₃.release with
      | ok result s₄ =>
        rw [Step.Ends, hfinish]
        exact ⟨_, mid, s₂, last, s₃, hcomes hpasses, hround, hfinish⟩
      | error e s₄ =>
        rw [Step.Ends, hfinish]
        exact .finish (hcomes hpasses) hround hfinish
    · rcases hs₃ with ⟨mid, s₂, hpasses, hround⟩ | ⟨mid, hpasses⟩
      · exact .round (hcomes hpasses) hround
      · exact .endless (hcomes hpasses)

/-- From wherever it has come to, rounds lead a run that returns to the one that stops it. -/
theorem ComesTo.ends {result : RunResult α} {s' : Session α}
    (h : r.ComesTo plan s first here s₁) (hreturns : r.step plan s = .ok result s') :
    ∃ mid s₂ last s₃, Passes plan first here s₁ mid s₂ ∧
      Iteration.round plan first mid s₂ = .ok (last, true) s₃ ∧
      finish plan last s₃.release = .ok result s' := by
  obtain ⟨_, mid, s₂, last, s₃, hmid, hends, hfinish⟩ := (step_comes plan r s).of_ok hreturns
  obtain ⟨rfl, htotal⟩ := h.total hmid
  refine ⟨mid, s₂, last, s₃, ?_, hends, hfinish⟩
  rcases htotal with hpasses | hpasses
  · exact hpasses
  · -- no round follows the one that stops the run
    rcases hpasses.cases_head with ⟨rfl, rfl⟩ | ⟨_, _, hgoesOn, -⟩
    · exact .here
    · rw [hends] at hgoesOn
      cases hgoesOn

end Request

end ClusterRounds
