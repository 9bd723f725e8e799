/-
  ClusterRounds.Proofs.Takeover

  What an operator makes of a snapshot that it is to take up. The snapshot is looked at in
  two places: its partition, its points and whether it was taken between two rounds are
  checked before anything is touched, but the name of its phase is read only when everything
  else has been taken over. So a snapshot is refused, and then nothing has changed; or it is
  taken up; or it is taken over but for its phase, and that is a failure (`restore_cases`).
  A set that fails at being made an array does not occur, since sets are arrays by type.
  Which operators take up a snapshot depends on what they hold and not on what they went
  through, so not all of them are new ones (`Vacant.asNew`).
-/

import ClusterRounds.Proofs.Coherence

namespace ClusterRounds
namespace Assigner

variable {α : Type}

/-! ## What taking up comes to -/

section Restore

variable {a : Assigner α} {stored : PartitionSnapshot α} {q : Tensor α}

/-- What is looked at before anything is touched is all a matter of recovery. -/
theorem recovery_of_acceptable {e : Failure} (h : a.acceptable stored = .error e) :
    ∃ fault, e = .recovery fault := by
  unfold acceptable at h
  simp only [throw, throwThe, MonadExceptOf.throw, bind, Except.bind, pure, Except.pure] at h
  repeat' split at h
  all_goals cases h
  all_goals exact ⟨_, rfl⟩

theorem restore_of_other {text : String} (h : a.acceptable stored = .ok q)
    (hphase : stored.phase = .other text) :
    a.restore stored = (.error (.operand .unknownName), a.filled stored q a.phase) := by
  unfold restore
  rw [h, hphase]
  rfl

/-- All that taking up a snapshot can come to. -/
theorem restore_cases (a : Assigner α) (stored : PartitionSnapshot α) :
    ((∀ q, ¬ (a.Vacant ∧ Storable a.id stored q)) ∧
      ∃ fault, a.restore stored = (.error (.recovery fault), a)) ∨
    ∃ q, (a.Vacant ∧ Storable a.id stored q) ∧
      ((∃ phase, stored.phase = .known phase ∧
          a.restore stored = (.ok (), a.filled stored q phase)) ∨
        ∃ text, stored.phase = .other text ∧
          a.restore stored = (.error (.operand .unknownName), a.filled stored q a.phase)) := by
  cases hacceptable : a.acceptable stored with
  | error e =>
    obtain ⟨fault, rfl⟩ := recovery_of_acceptable hacceptable
    refine .inl ⟨fun q hq => ?_, fault, by rw [restore, hacceptable]⟩
    rw [acceptable_eq_ok.2 hq] at hacceptable
    cases hacceptable
  | ok q =>
    refine .inr ⟨q, acceptable_eq_ok.1 hacceptable, ?_⟩
    cases hphase : stored.phase with
    | known phase => exact .inl ⟨phase, rfl, restore_of_acceptable hacceptable hphase⟩
    | other text => exact .inr ⟨text, rfl, restore_of_other hacceptable hphase⟩

theorem restore_eq_ok : (a.restore stored).1 = .ok () ↔
    a.Vacant ∧ (∃ q, Storable a.id stored q) ∧ ∃ phase, stored.phase = .known phase := by
  rcases restore_cases a stored with ⟨hnone, fault, hrestore⟩ |
    ⟨q, ⟨hvacant, hq⟩, ⟨phase, hphase, hrestore⟩ | ⟨text, hphase, hrestore⟩⟩
  · rw [hrestore]
    exact iff_of_false nofun fun ⟨hvacant, ⟨q, hq⟩, _⟩ => hnone q ⟨hvacant, hq⟩
  · rw [hrestore]
    exact iff_of_true rfl ⟨hvacant, ⟨q, hq⟩, phase, hphase⟩
  · rw [hrestore, hphase]
    exact iff_of_false nofun fun ⟨_, _, _, h⟩ => nomatch h

theorem restore_eq_unknownName : (a.restore stored).1 = .error (.operand .unknownName) ↔
    a.Vacant ∧ (∃ q, Storable a.id stored q) ∧ ∃ text, stored.phase = .other text := by
  rcases restore_cases a stored with ⟨hnone, fault, hrestore⟩ |
    ⟨q, ⟨hvacant, hq⟩, ⟨phase, hphase, hrestore⟩ | ⟨text, hphase, hrestore⟩⟩
  · rw [hrestore]
    exact iff_of_false nofun fun ⟨hvacant, ⟨q, hq⟩, _⟩ => hnone q ⟨hvacant, hq⟩
  · rw [hrestore, hphase]
    exact iff_of_false nofun fun ⟨_, _, _, h⟩ => nomatch h
  · rw [hrestore]
    exact iff_of_true rfl ⟨hvacant, ⟨q, hq⟩, text, hphase⟩

end Restore

/-! ## What is held afterwards -/

/-- The rows of the array that an operator gives to whoever asks for its points. -/
def rows (a : Assigner α) : Outcome (List (List α)) := a.contents.map Tensor.rowLists

section Filled

variable (a : Assigner α) (stored : PartitionSnapshot α) {q : Tensor α} (phase : Phase)

/-- The rows are those of the snapshot, if they have coordinates. -/
theorem rows_filled (hq : q.rank = 2) :
    (a.filled stored q phase).rows = .ok (if q.entries.isEmpty then [] else q.rowLists) := by
  obtain ⟨n, w, hshape⟩ := Tensor.exists_shape_of_rank_two hq
  unfold rows contents
  rw [readPoints_of_pieces rfl]
  unfold gathered filled
  by_cases he : q.entries.isEmpty
  · simp only [if_pos he]
    rfl
  · simp only [if_neg he, List.isEmpty_cons, Bool.false_eq_true, if_false,
      Tensor.stack_singleton hshape]
    rfl

theorem pointCount_filled :
    (a.filled stored q phase).pointCount = if q.entries.isEmpty then 0 else q.rowTotal := by
  unfold pointCount filled
  split
  · rfl
  · simp

variable {a}

/-- A snapshot that was taken over shows on an operator that held nothing, unless it brings
    nothing. -/
theorem sight_filled (hvacant : a.Vacant) (hq : q.rank = 2) :
    (a.filled stored q a.phase).sight = a.sight ↔
      q.entries = [] ∧ stored.pending = [] ∧ stored.lastEpoch = none := by
  have hcount : a.pointCount = 0 := by rw [pointCount, hvacant.chunks_eq]; rfl
  have hzero : (if q.entries.isEmpty then 0 else q.rowTotal) = 0 ↔ q.entries = [] := by
    obtain ⟨n, w, hshape⟩ := Tensor.exists_shape_of_rank_two hq
    rw [Tensor.rowTotal_of_shape hshape, ← List.isEmpty_iff]
    by_cases he : q.entries.isEmpty
    · simp [he]
    · refine iff_of_false (fun h => he ?_) he
      rw [if_neg he] at h
      rw [List.isEmpty_iff, ← List.length_eq_zero_iff, Tensor.length_entries_of_shape hshape, h,
        Nat.zero_mul]
  rw [sight, sight, pointCount_filled, hcount, hvacant.pending_eq, hvacant.lastEpoch_eq, ← hzero,
    ← List.length_eq_zero_iff]
  simp [filled]

end Filled

/-- The operator is as a new one, but for its phase, which may be that at the end, and for an array
    without entries that somebody may have asked for. -/
structure AsNew (id : Int) (a : Assigner α) : Prop where
  eq_fresh : a = { fresh id with phase := a.phase, joined := a.joined }
  phase_ne : a.phase ≠ .firing
  entries_eq : ∀ q, a.joined = some q → q.entries = []

theorem Vacant.asNew {a : Assigner α} (h : a.Vacant) (hcoherent : a.Coherent) : AsNew a.id a := by
  refine ⟨?_, fun hphase => hcoherent.pending_ne hphase h.pending_eq, fun q hq => ?_⟩
  · obtain ⟨hchunks, hpending, hlast⟩ := h
    cases a
    cases hchunks
    cases hpending
    cases hlast
    rfl
  · have hchunks := hcoherent.chunks_eq q hq
    rw [h.chunks_eq] at hchunks
    by_contra hne
    rw [if_neg (by simpa using hne)] at hchunks
    cases hchunks

/-! ## All, nothing, or all but the phase -/

/-- The operator holds what the snapshot does; of rows without coordinates it holds none. -/
structure HasTaken (id : Int) (stored : PartitionSnapshot α) (b : Assigner α) : Prop where
  id_eq : b.id = id
  pending_eq : b.pending = stored.pending
  lastEpoch_eq : b.lastEpoch = stored.lastEpoch
  phase_eq : stored.phase = .known b.phase
  rows_eq : ∀ q, stored.points = some q →
    b.rows = .ok (if q.entries.isEmpty then [] else q.rowLists)

/-- A snapshot is taken up exactly by an operator that holds nothing and has passed no boundary, if
    it is one of its partition, taken between two rounds, with a matrix of points and a known phase.
    Any other snapshot changes nothing, with the exception of one in which only the name of the phase
    is wrong: all else in it is held afterwards. -/
theorem restore_takes_all_or_fails [Scalar α] (m : Measure α) (id : Int) (asked : Nat)
    (past : List (Operation α)) (stored : PartitionSnapshot α) {a b : Assigner α}
    {done : Outcome Unit} (ha : a = (after m id asked past).operator)
    (hb : a.restore stored = (done, b)) :
    (done = .ok () ↔
      a.Vacant ∧ (∃ q, Storable id stored q) ∧ ∃ phase, stored.phase = .known phase) ∧
    (done = .ok () → AsNew id a ∧ HasTaken id stored b) ∧
    (∀ e, done = .error e →
      ((∃ fault, e = .recovery fault) ∧ b = a) ∨ e = .operand .unknownName) ∧
    (done = .error (.operand .unknownName) ↔
      a.Vacant ∧ (∃ q, Storable id stored q) ∧ ∃ text, stored.phase = .other text) ∧
    (done = .error (.operand .unknownName) → ∀ q, stored.points = some q →
      b = a.filled stored q a.phase ∧
      (b.sight = a.sight ↔ q.entries = [] ∧ stored.pending = [] ∧ stored.lastEpoch = none)) := by
  have hid : a.id = id := ha ▸ after_id m id asked past
  have hcoherent : a.Coherent := ha ▸ coherent_after m id asked past
  have hok : (a.restore stored).1 = .ok () ↔ _ := restore_eq_ok
  have hunknown : (a.restore stored).1 = .error (.operand .unknownName) ↔ _ :=
    restore_eq_unknownName
  rw [hb, hid] at hok hunknown
  rcases restore_cases a stored with ⟨hnone, fault, hrestore⟩ |
    ⟨q, ⟨hvacant, hq⟩, ⟨phase, hphase, hrestore⟩ | ⟨text, hphase, hrestore⟩⟩ <;>
  cases hb.symm.trans hrestore
  · refine ⟨hok, (nomatch ·), fun e he => .inl ⟨⟨fault, ?_⟩, rfl⟩, hunknown, (nomatch ·)⟩
    exact (Except.error.inj he).symm
  · refine ⟨hok, fun _ => ⟨hid ▸ hvacant.asNew hcoherent, ?_⟩, fun _ h => (nomatch h), hunknown,
      (nomatch ·)⟩
    refine ⟨hid, rfl, rfl, hphase, fun q' hq' => ?_⟩
    rw [hq.points_eq, Option.some.injEq] at hq'
    exact hq' ▸ rows_filled a stored phase hq.rank_eq
  · refine ⟨hok, (nomatch ·), fun e he => .inr (Except.error.inj he).symm, hunknown,
      fun _ q' hq' => ?_⟩
    rw [hq.points_eq, Option.some.injEq] at hq'
    subst hq'
    exact ⟨rfl, sight_filled stored hvacant hq.rank_eq⟩

/-! ## An operator at its end, and a phase without a meaning -/

namespace Sample

/-- One point, stored before the first round under the name of a phase. -/
def onePointAs (phase : String) : PartitionSnapshot Rat :=
  ⟨0, some (.ofRowLists [1] [[1]]), [], none, .ofName phase⟩

end Sample

/-- An operator that was terminated before its first boundary takes all of a snapshot. -/
theorem restore_takes_all_or_fails_at_end : ∃ a b,
    a = (after Sample.measure 0 0 [.terminate]).operator ∧
      a.restore (Sample.onePointAs "accumulating") = (.ok (), b) ∧
      a.sight = ⟨.terminated, 0, 0, none⟩ ∧ AsNew 0 a ∧
      HasTaken 0 (Sample.onePointAs "accumulating") b ∧ b.rows = .ok [[1]] := by
  obtain ⟨hnew, htaken⟩ := (restore_takes_all_or_fails Sample.measure 0 0 [.terminate]
    (Sample.onePointAs "accumulating") rfl rfl).2.1 rfl
  exact ⟨_, _, rfl, rfl, rfl, hnew, htaken, htaken.rows_eq _ rfl⟩

/-- A new operator fails to take up a snapshot for the name of its phase, and holds its point. -/
theorem misnamed_is_taken_over :
    ((fresh 0).restore (Sample.onePointAs "resting")).1 = .error (.operand .unknownName) ∧
      (fresh 0 : Assigner Rat).sight = ⟨.accumulating, 0, 0, none⟩ ∧
      ((fresh 0).restore (Sample.onePointAs "resting")).2.sight = ⟨.accumulating, 1, 0, none⟩ :=
  ⟨rfl, rfl, rfl⟩

end Assigner
end ClusterRounds
