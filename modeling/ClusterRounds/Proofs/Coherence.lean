/-
  ClusterRounds.Proofs.Coherence

  What holds of an operator whatever was asked of it, with points of any shape. The array that
  stands for all its points is the one piece that it holds, unless it has no entries; and an
  operator that was left at a boundary has a centroid set waiting (`Coherent`). So the number of
  points that it shows is that of the array which it gives to whoever asks for them, but for
  points without coordinates: of these it forgets the number as soon as somebody has asked.
-/

import ClusterRounds.Proofs.Operations

namespace ClusterRounds

variable {α : Type}

/-! ## Arrays that were stacked -/

namespace Tensor

theorem exists_shape_of_ne {t : Tensor α} (h : t.shape ≠ []) :
    ∃ n, t.shape = n :: t.innerShape := by
  obtain ⟨n, inner, hshape⟩ := List.exists_cons_of_ne_nil h
  exact ⟨n, by rw [hshape, innerShape_of_shape hshape]⟩

/-- Arrays that can be stacked have rows of one shape, and the stack has them all. -/
theorem stack_eq_ok {t q : Tensor α} {rest : List (Tensor α)} (h : stack (t :: rest) = .ok q) :
    (∀ u ∈ t :: rest, ∃ n, u.shape = n :: t.innerShape) ∧
      q = ofRowLists t.innerShape ((t :: rest).flatMap rowLists) := by
  rw [stack] at h
  split at h
  · cases h
  · rename_i ht
    split at h
    · rename_i hall
      rw [List.all_eq_true] at hall
      refine ⟨List.forall_mem_cons.2 ⟨exists_shape_of_ne ht, fun u hu => ?_⟩,
        (Except.ok.inj h).symm⟩
      obtain ⟨hne, hinner⟩ : u.shape ≠ [] ∧ u.innerShape = t.innerShape := by simpa using hall u hu
      rw [← hinner]
      exact exists_shape_of_ne hne
    · cases h

theorem rowLists_stack {arrays : List (Tensor α)} {q : Tensor α} (h : stack arrays = .ok q) :
    q.rowLists = arrays.flatMap rowLists ∧ q.rowTotal = (arrays.flatMap rowLists).length := by
  cases arrays with
  | nil => cases h
  | cons t rest =>
    obtain ⟨hshapes, rfl⟩ := stack_eq_ok h
    have hrows : ∀ row ∈ (t :: rest).flatMap rowLists, row.length = t.innerShape.size := by
      intro row hrow
      obtain ⟨u, hu, hrow⟩ := List.mem_flatMap.1 hrow
      obtain ⟨n, hn⟩ := hshapes u hu
      exact length_of_mem_rowLists hn hrow
    exact ⟨rowLists_ofRowLists hrows, rowTotal_of_shape (shape_ofRowLists hrows)⟩

theorem rowTotal_stack {arrays : List (Tensor α)} {q : Tensor α} (h : stack arrays = .ok q) :
    q.rowTotal = (arrays.map rowTotal).foldl (· + ·) 0 := by
  cases arrays with
  | nil => cases h
  | cons t rest =>
    have hcounts : (t :: rest).map (fun u => u.rowLists.length) = (t :: rest).map rowTotal := by
      refine List.map_congr_left fun u hu => ?_
      obtain ⟨n, hn⟩ := (stack_eq_ok h).1 u hu
      rw [length_rowLists hn, rowTotal_of_shape hn]
    rw [(rowLists_stack h).2, List.length_flatMap, hcounts, List.sum_eq_foldl]

end Tensor

namespace Assigner

/-! ## The points as an array -/

/-- All pieces as one array. -/
def gathered (chunks : List (Tensor α)) : Outcome (Tensor α) :=
  if chunks.isEmpty then .ok .noPoints else .ofOperands (Tensor.stack chunks)

/-- The array that an operator gives to whoever asks for its points. -/
def contents (a : Assigner α) : Outcome (Tensor α) := a.readPoints.map (·.1)

section Reading

variable {a b : Assigner α} {q : Tensor α}

theorem readPoints_of_joined (h : a.joined = some q) : a.readPoints = .ok (q, a) := by
  unfold readPoints
  rw [h]

theorem readPoints_of_pieces (h : a.joined = none) :
    a.readPoints = (gathered a.chunks).map fun q => (q, a.holding q) := by
  unfold readPoints gathered
  rw [h]
  cases a.chunks with
  | nil => rfl
  | cons t rest =>
    simp only [List.isEmpty_cons, Bool.false_eq_true, if_false]
    cases Outcome.ofOperands (Tensor.stack (t :: rest)) <;> rfl

theorem contents_eq_ok : a.contents = .ok q ↔ ∃ b, a.readPoints = .ok (q, b) := by
  unfold contents
  rw [map_eq_ok]
  exact ⟨fun ⟨(_, b), h, heq⟩ => ⟨b, heq ▸ h⟩, fun ⟨b, h⟩ => ⟨(q, b), h, rfl⟩⟩

/-- Which phase the operator is in does not matter to its points. -/
theorem readPoints_inPhase (a : Assigner α) (phase : Phase) :
    ({ a with phase } : Assigner α).readPoints
      = a.readPoints.map fun (q, b) => (q, { b with phase }) := by
  rcases Option.eq_none_or_eq_some a.joined with hjoined | ⟨q, hjoined⟩
  · rw [readPoints_of_pieces hjoined, readPoints_of_pieces (a := { a with phase }) hjoined]
    cases gathered a.chunks <;> rfl
  · rw [readPoints_of_joined hjoined, readPoints_of_joined (a := { a with phase }) hjoined]
    rfl

theorem contents_inPhase (a : Assigner α) (phase : Phase) :
    ({ a with phase } : Assigner α).contents = a.contents := by
  unfold contents
  rw [readPoints_inPhase]
  cases a.readPoints <;> rfl

/-- An array without entries is no piece, so its rows do not count. -/
theorem pointCount_holding (a : Assigner α) (q : Tensor α) :
    (a.holding q).pointCount = if q.entries.isEmpty then 0 else q.rowTotal := by
  unfold pointCount holding
  split
  · rfl
  · simp

end Reading

/-! ## What every operation keeps -/

/-- The array that stands for all points is the one piece that is held, and an operator at a
    boundary has a set for it. -/
structure Coherent (a : Assigner α) : Prop where
  chunks_eq : ∀ q, a.joined = some q → a.chunks = if q.entries.isEmpty then [] else [q]
  pending_ne : a.phase = .firing → a.pending ≠ []

/-- As long as nobody has asked for the points, they may be held in any pieces. -/
theorem coherent_of_unread {a : Assigner α} (hjoined : a.joined = none)
    (hpending : a.phase = .firing → a.pending ≠ []) : a.Coherent := by
  refine ⟨fun q hq => ?_, hpending⟩
  rw [hjoined] at hq
  cases hq

theorem coherent_fresh (id : Int) : (fresh id : Assigner α).Coherent :=
  coherent_of_unread rfl fun h => absurd h (by decide : Phase.accumulating ≠ .firing)

namespace Coherent

variable {a b : Assigner α} {q : Tensor α}

/-- Whoever asks for the points leaves the operator holding them as one array. -/
theorem readPoints (h : a.Coherent) (hread : a.readPoints = .ok (q, b)) : b = a.holding q := by
  cases hjoined : a.joined with
  | some points =>
    rw [readPoints_of_joined hjoined] at hread
    cases hread
    rw [Assigner.holding, ← hjoined, ← h.chunks_eq q hjoined]
  | none =>
    rw [readPoints_of_pieces hjoined, map_eq_ok] at hread
    obtain ⟨_, -, heq⟩ := hread
    cases heq
    rfl

theorem holding (h : a.Coherent) (q : Tensor α) : (a.holding q).Coherent :=
  ⟨fun _ hq => by cases hq; rfl, h.pending_ne⟩

/-- The number of points shown is that of the array, if this has entries. -/
theorem pointCount (h : a.Coherent) (hq : a.contents = .ok q) (hne : q.entries ≠ []) :
    a.pointCount = q.rowTotal := by
  obtain ⟨b, hread⟩ := contents_eq_ok.1 hq
  cases hjoined : a.joined with
  | some points =>
    rw [readPoints_of_joined hjoined] at hread
    cases hread
    rw [Assigner.pointCount, h.chunks_eq q hjoined, if_neg (by simpa using hne)]
    simp
  | none =>
    rw [readPoints_of_pieces hjoined, map_eq_ok] at hread
    obtain ⟨_, hgathered, heq⟩ := hread
    cases heq
    unfold gathered at hgathered
    split at hgathered
    · cases hgathered
      exact absurd rfl hne
    · exact (Tensor.rowTotal_stack (ofOperands_eq_ok.1 hgathered)).symm

section Operations

variable [Scalar α] {m : Measure α}

theorem fire (h : a.Coherent) (calls : Nat) (epoch : Int) :
    (a.fire m calls epoch).assigner.Coherent := by
  cases hsole : a.soleSet epoch with
  | error e =>
    rw [fire_of_soleSet_error m calls hsole]
    exact h
  | ok set =>
    have hfiring : ({ a with phase := .firing } : Assigner α).Coherent :=
      ⟨h.chunks_eq, fun _ => by rw [(soleSet_eq_ok.1 hsole).2]; simp⟩
    cases hread : ({ a with phase := .firing } : Assigner α).readPoints with
    | error e =>
      rw [fire_of_readPoints_error m calls hsole hread]
      exact hfiring
    | ok read =>
      obtain ⟨q, b⟩ := read
      obtain rfl := hfiring.readPoints hread
      rw [(fire_eq m calls hsole hread).2]
      split
      · exact ⟨(hfiring.holding q).chunks_eq, nofun⟩
      · exact hfiring.holding q

/-- Whatever is asked of an operator, it stays coherent. -/
theorem perform {a : Metered α} (h : a.operator.Coherent) (op : Operation α) :
    (perform m a op).2.operator.Coherent := by
  cases op with
  | addPoints points =>
    simp only [Assigner.perform, addPoints_eq]
    cases a.operator.checkAlive .points with
    | error e => exact h
    | ok _ => exact coherent_of_unread rfl h.pending_ne
  | receive centroids =>
    simp only [Assigner.perform, receive_eq]
    cases a.operator.checkAlive .centroids with
    | error e => exact h
    | ok _ => exact ⟨h.chunks_eq, fun _ => List.append_ne_nil_of_right_ne_nil _ (by simp)⟩
  | boundary epoch => exact h.fire a.asked epoch
  | readPoints =>
    cases hread : a.operator.readPoints with
    | error e => simpa only [Assigner.perform, hread, Except.map, Metered.take] using h
    | ok read =>
      simp only [Assigner.perform, hread, Except.map, Metered.take]
      exact h.readPoints hread ▸ h.holding read.1
  | snapshot =>
    cases hread : a.operator.readPoints with
    | error e => simpa only [Assigner.perform, snapshot_eq, hread, Except.map, Metered.take] using h
    | ok read =>
      simp only [Assigner.perform, snapshot_eq, hread, Except.map, Metered.take]
      exact h.readPoints hread ▸ h.holding read.1
  | restore stored =>
    simp only [Assigner.perform]
    cases hacceptable : a.operator.acceptable stored with
    | error e => simpa only [Assigner.restore, hacceptable] using h
    | ok q =>
      obtain ⟨hvacant, hstored⟩ := acceptable_eq_ok.1 hacceptable
      have hbetween : a.operator.phase ≠ .firing := fun hphase =>
        h.pending_ne hphase hvacant.pending_eq
      cases hphase : stored.phase with
      | known phase =>
        rw [restore_of_acceptable hacceptable hphase]
        refine coherent_of_unread rfl fun hfiring => absurd ?_ hstored.between
        rw [hphase]
        exact congrArg _ hfiring
      | other _ =>
        simp only [Assigner.restore, hacceptable, hphase]
        exact coherent_of_unread rfl fun hfiring => absurd hfiring hbetween
  | terminate =>
    exact coherent_of_unread rfl fun h => absurd h (by decide : Phase.terminated ≠ .firing)

end Operations

end Coherent

/-- The operator of a partition after a series of operations. -/
def after [Scalar α] (m : Measure α) (id : Int) (asked : Nat) (past : List (Operation α)) :
    Metered α :=
  History.after (operate m) ⟨fresh id, asked⟩ past

theorem coherent_after [Scalar α] (m : Measure α) (id : Int) (asked : Nat)
    (past : List (Operation α)) : (after m id asked past).operator.Coherent :=
  History.invariant (I := fun _ (a : Metered α) => a.operator.Coherent) (coherent_fresh id)
    fun _ _ op _ h => h.perform op

end Assigner
end ClusterRounds
