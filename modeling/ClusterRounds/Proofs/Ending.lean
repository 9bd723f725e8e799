/-
  ClusterRounds.Proofs.Ending

  Operators that were terminated. Such an operator holds nothing and refuses points, centroid
  sets and boundaries, whatever it went through before. What it does not refuse is a snapshot:
  that is taken up by whoever is vacant, and an operator that was terminated before its first
  boundary is. So its end is final if a boundary is behind it, and in any case for as long as
  no snapshot comes that it could take up (`final_after_termination`).
-/

import ClusterRounds.Proofs.Operations

namespace ClusterRounds
namespace Assigner

variable {α : Type}

/-! ## What is final -/

/-- What an operation delivers to the operator. -/
def Operation.delivery : Operation α → Option Delivery
  | .addPoints _ => some .points
  | .receive _ => some .centroids
  | .boundary _ => some .boundary
  | _ => none

/-- The operation is no snapshot that an operator of the partition would take up. -/
def Operation.BringsNothing (id : Int) (op : Operation α) : Prop :=
  ∀ stored q, op = .restore stored → ¬ Storable id stored q

/-- The rows that an answer tells. -/
def Reply.rows : Reply α → List (List α)
  | .taken => []
  | .points rows => rows
  | .labelled _ _ rows => rows
  | .stored _ rows _ _ _ => rows.getD []

/-- An operation as it shows itself at an operator that is at its end: deliveries are refused, nothing
    is told of points, and afterwards the operator is at its end and holds nothing. -/
structure Final (id : Int) (entry : Operation α × Outcome (Reply α) × Sight) : Prop where
  refused : ∀ delivery, entry.1.delivery = some delivery →
    entry.2.1 = .error (.protocol (.afterTermination id delivery))
  empty : ∀ reply, entry.2.1 = .ok reply → reply.rows = []
  phase_eq : entry.2.2.phase = .terminated
  points_eq : entry.2.2.points = 0
  sets_eq : entry.2.2.sets = 0

/-- The operator is at its end and holds nothing. -/
structure Ended (id : Int) (a : Assigner α) : Prop where
  id_eq : a.id = id
  phase_eq : a.phase = .terminated
  chunks_eq : a.chunks = []
  pending_eq : a.pending = []
  joined_eq : a.joined = none ∨ a.joined = some .noPoints

theorem ended_terminate (a : Assigner α) : Ended a.id a.terminate :=
  ⟨rfl, rfl, rfl, rfl, .inl rfl⟩

namespace Ended

variable {id : Int} {a : Assigner α} (h : Ended id a)

include h

theorem checkAlive (delivery : Delivery) :
    a.checkAlive delivery = .error (.protocol (.afterTermination id delivery)) := by
  rw [Assigner.checkAlive, if_pos h.phase_eq, h.id_eq]

theorem soleSet (epoch : Int) :
    a.soleSet epoch = .error (.protocol (.afterTermination id .boundary)) := by
  unfold Assigner.soleSet
  rw [h.checkAlive]
  rfl

theorem sight : a.sight = ⟨.terminated, 0, 0, a.lastEpoch⟩ := by
  rw [Assigner.sight, Assigner.pointCount, h.phase_eq, h.chunks_eq, h.pending_eq]
  rfl

/-- A delivery that is refused and leaves the operator at its end. -/
theorem final_of_refused {op : Operation α} {delivery : Delivery}
    (hop : op.delivery = some delivery) :
    Final id (op, .error (.protocol (.afterTermination id delivery)), a.sight) := by
  rw [h.sight]
  refine ⟨fun other hother => ?_, fun reply hreply => ?_, rfl, rfl, rfl⟩
  · rw [hop, Option.some.injEq] at hother
    rw [hother]
  · cases hreply

/-- Anything else that leaves the operator at its end and tells nothing of points. -/
theorem final_of_empty {op : Operation α} (hop : op.delivery = none) {answer : Outcome (Reply α)}
    (hempty : ∀ reply, answer = .ok reply → reply.rows = []) : Final id (op, answer, a.sight) := by
  rw [h.sight]
  refine ⟨fun delivery hdelivery => ?_, hempty, rfl, rfl, rfl⟩
  rw [hop] at hdelivery
  cases hdelivery

/-- Read as an array, its points are none, and all that is left behind is that array. -/
theorem readPoints : ∃ b, a.readPoints = .ok (.noPoints, b) ∧ Ended id b ∧
    b.lastEpoch = a.lastEpoch := by
  rcases h.joined_eq with hjoined | hjoined
  · refine ⟨{ a with joined := some .noPoints, chunks := [] }, ?_,
      ⟨h.id_eq, h.phase_eq, rfl, h.pending_eq, .inr rfl⟩, rfl⟩
    simp only [Assigner.readPoints, hjoined, h.chunks_eq]
    rfl
  · refine ⟨a, ?_, h, rfl⟩
    simp only [Assigner.readPoints, hjoined]

/-- It takes up no snapshot if a boundary is behind it, nor one that no operator of its partition
    would take up. -/
theorem restore {stored : PartitionSnapshot α}
    (hstored : a.lastEpoch ≠ none ∨ ∀ q, ¬ Storable id stored q) :
    ∃ e, a.restore stored = (.error e, a) := by
  cases hacceptable : a.acceptable stored with
  | error e => exact ⟨e, by rw [Assigner.restore, hacceptable]⟩
  | ok q =>
    obtain ⟨hvacant, hq⟩ := acceptable_eq_ok.1 hacceptable
    rw [h.id_eq] at hq
    rcases hstored with hlast | hnone
    · exact absurd hvacant.lastEpoch_eq hlast
    · exact absurd hq (hnone q)

end Ended

/-! ## Nothing after the end -/

section Series

variable [Scalar α] {m : Measure α} {id : Int}

/-- One operation at an operator that is at its end: it shows itself as final and leaves the
    operator there. -/
theorem Ended.operate {a : Metered α} (h : Ended id a.operator) {op : Operation α}
    (hop : a.operator.lastEpoch ≠ none ∨ op.BringsNothing id) :
    Final id (op, (operate m a op).1) ∧ Ended id (operate m a op).2.operator ∧
      (operate m a op).2.operator.lastEpoch = a.operator.lastEpoch := by
  cases op with
  | addPoints points =>
    simp only [Assigner.operate, perform, addPoints_eq, h.checkAlive]
    exact ⟨h.final_of_refused rfl, h, rfl⟩
  | receive centroids =>
    simp only [Assigner.operate, perform, receive_eq, h.checkAlive]
    exact ⟨h.final_of_refused rfl, h, rfl⟩
  | boundary epoch =>
    simp only [Assigner.operate, perform, fire_of_soleSet_error m a.asked (h.soleSet epoch)]
    exact ⟨h.final_of_refused rfl, h, trivial⟩
  | readPoints =>
    obtain ⟨b, hread, hb, hlast⟩ := h.readPoints
    simp only [Assigner.operate, perform, hread]
    exact ⟨hb.final_of_empty rfl (by rintro _ ⟨⟩; rfl), hb, hlast⟩
  | snapshot =>
    obtain ⟨b, hread, hb, hlast⟩ := h.readPoints
    simp only [Assigner.operate, perform, snapshot_eq, hread]
    exact ⟨hb.final_of_empty rfl (by rintro _ ⟨⟩; rfl), hb, hlast⟩
  | restore stored =>
    obtain ⟨e, hrefused⟩ : ∃ e, a.operator.restore stored = (.error e, a.operator) :=
      h.restore (hop.imp_right fun hnone q => hnone stored q rfl)
    simp only [Assigner.operate, perform, hrefused]
    exact ⟨h.final_of_empty rfl (by rintro _ ⟨⟩), h, trivial⟩
  | terminate =>
    have hb : Ended id a.operator.terminate := h.id_eq ▸ ended_terminate a.operator
    exact ⟨hb.final_of_empty rfl (by rintro _ ⟨⟩; rfl), hb, rfl⟩

/-- What is kept while operations are asked of an operator at its end: all that they showed was
    final. -/
structure Settled (id : Int) (last : Option Int)
    (log : List (Operation α × Outcome (Reply α) × Sight)) (a : Metered α) : Prop where
  final : ∀ entry ∈ log, Final id entry
  ended : Ended id a.operator
  lastEpoch_eq : a.operator.lastEpoch = last

theorem Settled.operate {last : Option Int} {log : List (Operation α × Outcome (Reply α) × Sight)}
    {a : Metered α} (h : Settled id last log a) {op : Operation α}
    (hop : last ≠ none ∨ op.BringsNothing id) :
    Settled id last (log ++ [(op, (Assigner.operate m a op).1)]) (Assigner.operate m a op).2 := by
  have hquiet : a.operator.lastEpoch ≠ none ∨ op.BringsNothing id := h.lastEpoch_eq ▸ hop
  obtain ⟨hfinal, hended, hlast⟩ := h.ended.operate (m := m) hquiet
  refine ⟨fun entry hentry => ?_, hended, hlast.trans h.lastEpoch_eq⟩
  rcases List.mem_append.1 hentry with hentry | hentry
  · exact h.final entry hentry
  · rw [List.mem_singleton.1 hentry]
    exact hfinal

/-- All that a series of operations shows is final. -/
theorem Ended.log {a : Metered α} (h : Ended id a.operator) {later : List (Operation α)}
    (hlater : a.operator.lastEpoch ≠ none ∨ ∀ op ∈ later, op.BringsNothing id) :
    ∀ entry ∈ History.log (Assigner.operate m) a later, Final id entry :=
  (History.invariant (I := Settled id a.operator.lastEpoch) ⟨List.forall_mem_nil _, h, rfl⟩
    fun _ _ op hop hsettled => hsettled.operate (hlater.imp_right fun hnone => hnone op hop)).final

/-- The operator of a partition after a series of operations that ended it. -/
def ended (m : Measure α) (id : Int) (asked : Nat) (before : List (Operation α)) : Metered α :=
  History.after (Assigner.operate m) ⟨fresh id, asked⟩ (before ++ [.terminate])

theorem ended_ended (asked : Nat) (before : List (Operation α)) :
    Ended id (ended m id asked before).operator := by
  rw [ended, History.after_concat]
  have hend := ended_terminate (History.after (operate m) ⟨fresh id, asked⟩ before).operator
  rwa [after_id] at hend

/-- An operator of the partition as it is before it is given anything, stored. -/
def reopening (id : Int) : PartitionSnapshot α := ⟨id, some .noPoints, [], none, .known .accumulating⟩

/-- When the end of an operator is final: whatever is asked of it later, if a boundary is behind it
    and only then; and otherwise for as long as no snapshot comes that an operator of its partition
    would take up. -/
theorem final_after_termination (m : Measure α) (id : Int) (asked : Nat)
    (before : List (Operation α)) :
    ((∀ later, ∀ entry ∈ History.log (operate m) (ended m id asked before) later, Final id entry) ↔
        (ended m id asked before).operator.lastEpoch ≠ none) ∧
      ∀ later, (∀ op ∈ later, op.BringsNothing id) →
        ∀ entry ∈ History.log (operate m) (ended m id asked before) later, Final id entry := by
  have hended : Ended id (ended m id asked before).operator := ended_ended asked before
  refine ⟨⟨fun hfinal hlast => ?_, fun hlast later => hended.log (.inl hlast)⟩,
    fun later hlater => hended.log (.inr hlater)⟩
  -- an operator without a boundary behind it is vacant, so it can be opened again
  have hvacant : (ended m id asked before).operator.Vacant :=
    ⟨hended.chunks_eq, hended.pending_eq, hlast⟩
  have hstorable : Storable (ended m id asked before).operator.id (reopening id : PartitionSnapshot α)
      .noPoints := ⟨hended.id_eq.symm, nofun, rfl, rfl⟩
  have hopened : (ended m id asked before).operator.restore (reopening id) = (.ok (), _) :=
    restore_of_acceptable (acceptable_eq_ok.2 ⟨hvacant, hstorable⟩) rfl
  have hentry := (hfinal [.restore (reopening id)] _ (List.mem_singleton.2 rfl)).phase_eq
  simp only [operate, perform, hopened] at hentry
  cases hentry

end Series

/-! ## An end that is not final -/

namespace Sample

/-- One point, stored before the first round. -/
def onePoint : PartitionSnapshot Rat :=
  ⟨0, some (.ofRowLists [1] [[1]]), [], none, .known .accumulating⟩

end Sample

/-- An operator that is terminated before its first boundary takes up a snapshot, and points too. -/
theorem terminated_takes_up_points :
    (History.log (operate Sample.measure) (ended Sample.measure 0 0 [])
        [.restore Sample.onePoint, .addPoints Sample.pair]).map (·.2)
      = [(.ok .taken, ⟨.accumulating, 1, 0, none⟩), (.ok .taken, ⟨.accumulating, 3, 0, none⟩)] ∧
    ¬ ∀ entry ∈ History.log (operate Sample.measure) (ended Sample.measure 0 0 [])
        [.restore Sample.onePoint, .addPoints Sample.pair], Final 0 entry :=
  ⟨rfl, fun h => nomatch (h _ List.mem_cons_self).phase_eq⟩

end Assigner
end ClusterRounds
