/-
  ClusterRounds.Proofs.Stopping

  The criterion that settings ask for. What it remembers of the rounds before does not
  matter to its next answer, and after its answer it is what any other of its kind
  would be. So a run that is taken up again with a new criterion stops where the run
  would have stopped that was broken off.
-/

import ClusterRounds.Criterion
import ClusterRounds.Proofs.Outcome
import ClusterRounds.Proofs.Tensor

namespace ClusterRounds

variable {α : Type}

/-- Centroids with a coordinate, and as many before, have a largest change. -/
theorem Quality.exists_shift_of_shape [Scalar α] {old new : Tensor α}
    (hshape : new.shape = old.shape) (hne : new.entries ≠ []) : ∃ moved, shift old new = .ok moved := by
  have hlength : (List.zipWith (· - ·) new.entries old.entries).length = new.entries.length := by
    rw [List.length_zipWith, new.length_entries, old.length_entries, hshape, Nat.min_self]
  unfold shift
  rw [Tensor.zipWith_of_shape _ hshape]
  show ∃ moved, Scalar.maximum ((List.zipWith (· - ·) new.entries old.entries).map _) = _
  cases hentries : List.zipWith (· - ·) new.entries old.entries with
  | nil =>
    rw [hentries] at hlength
    exact absurd (List.eq_nil_of_length_eq_zero hlength.symm) hne
  | cons x rest => exact ⟨_, rfl⟩

namespace Quantity

theorem leInt_int (n i : Int) : (int n).leInt i = decide (n ≤ i) := by
  unfold leInt compareInt
  rcases Int.lt_trichotomy n i with h | rfl | h
  · simp [Int.compare_eq_lt.2 h, Int.le_of_lt h]
  · simp
  · simp [Int.compare_eq_gt.2 h, Int.not_le.2 h]

end Quantity

namespace Criterion

/-- The criterion that settings ask for, once it has seen a change. -/
def remembering (settings : Settings) (last : Option α) : Criterion α :=
  match settings.tolerance with
  | none => .rounds (.int settings.maxRounds)
  | some t => .anyOf [.rounds (.int settings.maxRounds), .change t last]

theorem remembering_none (settings : Settings) :
    (remembering settings none : Criterion α) = ofSettings settings := by
  unfold remembering ofSettings
  cases settings.tolerance <;> rfl

/-- It has stopped the run when the largest number of rounds is reached. -/
theorem horizon_remembering (settings : Settings) (last : Option α) (start : Nat) :
    (remembering settings last).horizon start = some (settings.maxRounds - start + 1) := by
  have hceiling : ceiling? (.int settings.maxRounds) = some settings.maxRounds := by
    simp [ceiling?, Quantity.truncate, Quantity.leInt_int]
  unfold remembering
  cases settings.tolerance <;> simp [horizon, horizonOfAny, hceiling, least]

section Ask

variable [Scalar α] {settings : Settings} {round : Int} {next previous : Tensor α}

theorem ask_remembering (settings : Settings) (last : Option α) (round : Int)
    (next previous : Tensor α) :
    (remembering settings last).ask round next (some previous) =
      match settings.tolerance with
      | none => (.ok (decide ((settings.maxRounds : Int) ≤ round)), remembering settings last)
      | some t =>
        match Quality.shift previous next with
        | .error e => (.error (.operand e), remembering settings last)
        | .ok moved =>
          (.ok (decide ((settings.maxRounds : Int) ≤ round) || Scalar.isBelow moved t),
            remembering settings (some moved)) := by
  unfold remembering
  cases settings.tolerance with
  | none => simp [ask, Quantity.leInt_int]
  | some t =>
    cases hs : Quality.shift previous next with
    | error e => simp [ask, askAll, hs, Except.map]
    | ok moved => simp [ask, askAll, hs, Quantity.leInt_int, Except.map]

/-- What it remembers changes nothing. -/
theorem ask_remembering_eq (last last' : Option α) :
    ((remembering settings last).ask round next (some previous)).1
      = ((remembering settings last').ask round next (some previous)).1 := by
  rw [ask_remembering, ask_remembering]
  cases settings.tolerance with
  | none => rfl
  | some t => cases Quality.shift previous next <;> rfl

theorem ask_remembering_of_ok {last : Option α} (last' : Option α) {stop : Bool}
    (h : ((remembering settings last).ask round next (some previous)).1 = .ok stop) :
    ((remembering settings last).ask round next (some previous)).2.hasConverged
      = ((remembering settings last').ask round next (some previous)).2.hasConverged := by
  rw [ask_remembering] at h ⊢
  rw [ask_remembering]
  cases ht : settings.tolerance with
  | none => simp [remembering, ht, hasConverged]
  | some t =>
    rw [ht] at h
    cases hs : Quality.shift previous next with
    | error e => rw [hs] at h; cases h
    | ok moved => rfl

theorem exists_remembering_ask (settings : Settings) (last : Option α) (round : Int)
    (next previous : Tensor α) : ∃ last',
    ((remembering settings last).ask round next (some previous)).2 = remembering settings last' := by
  rw [ask_remembering]
  cases settings.tolerance with
  | none => exact ⟨last, rfl⟩
  | some t =>
    cases Quality.shift previous next with
    | error e => exact ⟨last, rfl⟩
    | ok moved => exact ⟨some moved, rfl⟩

/-- The run does not go on beyond the largest number of rounds. -/
theorem lt_maxRounds_of_ask {last : Option α}
    (h : ((remembering settings last).ask round next (some previous)).1 = .ok false) :
    round < settings.maxRounds := by
  rw [ask_remembering] at h
  cases ht : settings.tolerance with
  | none =>
    rw [ht] at h
    simpa using h
  | some t =>
    rw [ht] at h
    cases hs : Quality.shift previous next with
    | error e => rw [hs] at h; cases h
    | ok moved =>
      rw [hs] at h
      simp only [Except.ok.injEq, Bool.or_eq_false_iff, decide_eq_false_iff_not] at h
      exact Int.not_le.1 h.1

end Ask

/-! ## Criteria that break down -/

/-- The criterion answers as the one of the settings does, or breaks down. -/
def Follows [Scalar α] (settings : Settings) (c : Criterion α) : Prop :=
  ∃ among : Criterion α → Prop, among c ∧
    ∀ c, among c → ∀ round next previous stop,
      (c.ask round next (some previous)).1 = .ok stop →
      ((ofSettings settings).ask round next (some previous)).1 = .ok stop ∧
      (c.ask round next (some previous)).2.hasConverged
        = ((ofSettings settings).ask round next (some previous)).2.hasConverged ∧
      among (c.ask round next (some previous)).2

theorem follows_remembering [Scalar α] (settings : Settings) (last : Option α) :
    (remembering settings last).Follows settings := by
  refine ⟨fun c => ∃ last, c = remembering settings last, ⟨last, rfl⟩, ?_⟩
  rintro c ⟨last, rfl⟩ round next previous stop h
  rw [← remembering_none]
  refine ⟨?_, ask_remembering_of_ok none h, exists_remembering_ask settings last round next previous⟩
  rw [← h]
  exact ask_remembering_eq none last

theorem Follows.ask [Scalar α] {settings : Settings} {c : Criterion α} (h : c.Follows settings)
    {round : Int} {next previous : Tensor α} {stop : Bool}
    (hok : (c.ask round next (some previous)).1 = .ok stop) :
    ((ofSettings settings).ask round next (some previous)).1 = .ok stop ∧
      (c.ask round next (some previous)).2.hasConverged
        = ((ofSettings settings).ask round next (some previous)).2.hasConverged ∧
      (c.ask round next (some previous)).2.Follows settings := by
  obtain ⟨among, hc, hamong⟩ := h
  obtain ⟨hanswer, hconverged, hnext⟩ := hamong c hc round next previous stop hok
  exact ⟨hanswer, hconverged, among, hnext, hamong⟩

end Criterion
end ClusterRounds
