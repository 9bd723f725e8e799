/-
  ClusterRounds.Proofs.Acceptance

  Inputs and snapshots that are accepted, and the operators that come of them. Inputs are
  checked before there are any operators, and then there is one for each partition
  (`start_loads`). `Snapshot.Accepted` says what `validate` lets through (`validate_eq_ok`):
  the partitions are numbered from zero on, and each was stored between two rounds with one
  centroid set waiting. It says nothing about which set that is, nor about the form of the
  points; so an operator refuses points that are no matrix, and of an accepted snapshot either
  all operators are there afterwards, or those before the first of such partitions
  (`takeUp_accepts`).
-/

import ClusterRounds.Proofs.Operations
import ClusterRounds.Proofs.Stages

namespace ClusterRounds

variable {α : Type}

/-! ## Inputs that are accepted -/

/-- A new operator with the points of a partition. -/
def Assigner.loaded (entry : Tensor α × Nat) : Assigner α :=
  { Assigner.fresh entry.2 with chunks := [entry.1.atLeastMatrix] }

theorem map_id_loaded (partitions : List (Tensor α)) :
    (partitions.zipIdx.map Assigner.loaded).map (·.id)
      = (List.range partitions.length).map fun (i : Nat) => (i : Int) := by
  rw [List.range_eq_range', ← List.zipIdx_map_snd 0 partitions, List.map_map, List.map_map]
  rfl

/-- Inputs that are refused change nothing, and others bring an operator for each partition. -/
theorem Iteration.start_loads (plan : Plan α) (s : Session α) (partitions : List (Tensor α))
    (initial : Tensor α) :
    (start plan partitions initial).Ends s
      (fun _ s' => checkInputs plan.settings partitions initial = .ok () ∧
        s'.assigners = partitions.zipIdx.map Assigner.loaded)
      (fun _ s' => checkInputs plan.settings partitions initial ≠ .ok () ∧ s' = s) := by
  have hloaded : ∀ entry ∈ partitions.zipIdx,
      (Assigner.fresh (entry.2 : Int)).addPoints entry.1 = .ok (Assigner.loaded entry) :=
    fun _ _ => rfl
  simp only [start, Step.ends_bind]
  refine Step.ends_ofOutcome_of (fun _ haccepted => ?_) fun e hrefused => ?_
  · rw [mapM_eq_ok_map hloaded]
    exact ⟨haccepted, rfl⟩
  · rw [hrefused]
    exact ⟨nofun, rfl⟩

/-! ## Snapshots that are accepted -/

namespace Snapshot

/-- What is stored of a partition, as it is before the boundary of a round. -/
structure Fits (epoch : Int) (entry : Int × PartitionSnapshot α) : Prop where
  id_eq : entry.2.id = entry.1
  phase_eq : entry.2.phase = .known .accumulating
  sets : ∃ set, entry.2.pending = [set]
  before : ∀ last, entry.2.lastEpoch = some last → last < epoch

/-- The snapshot is one before the boundary of a round, with a partition for each number. -/
structure Accepted (z : Snapshot α) : Prop where
  epoch_nonneg : 0 ≤ z.epoch
  rank_eq : z.centroids.rank = 2
  rows_eq : z.centroids.rowTotal = z.settings.k
  ids_eq : z.ids = (List.range z.partitions.length).map fun (i : Nat) => (i : Int)
  partitions_ne : z.partitions ≠ []
  fits : ∀ entry ∈ z.partitions, Fits z.epoch entry

theorem validatePartition_eq_ok {epoch : Int} {entry : Int × PartitionSnapshot α} :
    validatePartition epoch entry = .ok () ↔ Fits epoch entry := by
  have hfits : Fits epoch entry ↔ entry.2.id = entry.1 ∧ entry.2.phase = .known .accumulating ∧
      entry.2.pending.length = 1 ∧ ∀ last, entry.2.lastEpoch = some last → last < epoch := by
    rw [List.length_eq_one_iff]
    exact ⟨fun h => ⟨h.id_eq, h.phase_eq, h.sets, h.before⟩,
      fun ⟨hid, hphase, hsets, hbefore⟩ => ⟨hid, hphase, hsets, hbefore⟩⟩
  rw [hfits]
  obtain ⟨id, p⟩ := entry
  unfold validatePartition
  simp only [throw, throwThe, MonadExceptOf.throw, bind, Except.bind, pure, Except.pure]
  by_cases hid : p.id = id
  · by_cases hphase : p.phase = .known .accumulating
    · by_cases hsets : p.pending.length = 1
      · cases hlast : p.lastEpoch with
        | none => simp [hid, hphase, hsets]
        | some last => simp [hid, hphase, hsets]
      · simp [hid, hphase, hsets]
    · simp [hid, hphase]
  · simp [hid]

theorem validate_eq_ok {z : Snapshot α} : z.validate = .ok () ↔ z.Accepted := by
  have haccepted : z.Accepted ↔ 0 ≤ z.epoch ∧ (z.centroids.rank = 2 ∧
      z.centroids.rowTotal = z.settings.k) ∧ (z.ids = (List.range z.partitions.length).map
        (fun (i : Nat) => (i : Int)) ∧ z.partitions ≠ []) ∧
      ∀ entry ∈ z.partitions, validatePartition z.epoch entry = .ok () := by
    simp only [validatePartition_eq_ok]
    exact ⟨fun h => ⟨h.epoch_nonneg, ⟨h.rank_eq, h.rows_eq⟩, ⟨h.ids_eq, h.partitions_ne⟩, h.fits⟩,
      fun ⟨he, ⟨hr, hk⟩, ⟨hi, hn⟩, hf⟩ => ⟨he, hr, hk, hi, hn, hf⟩⟩
  rw [haccepted, ← forM_eq_ok]
  unfold validate
  simp only [throw, throwThe, MonadExceptOf.throw, bind, Except.bind]
  by_cases hepoch : z.epoch < 0
  · simp [hepoch, Int.not_le.2 hepoch]
  · by_cases hshape : z.centroids.rank = 2 ∧ z.centroids.rowTotal = z.settings.k
    · by_cases hids : z.ids = (List.range z.partitions.length).map (fun (i : Nat) => (i : Int)) ∧
          z.partitions ≠ []
      · simp [Int.not_lt.1 hepoch, hepoch, hshape, hids]
      · have hrefused : z.ids ≠ (List.range z.partitions.length).map (fun (i : Nat) => (i : Int)) ∨
            z.partitions = [] := by
          rw [not_and_or, not_not] at hids
          exact hids
        simp [hepoch, hshape, hids, hrefused]
    · have hrefused : z.centroids.rank ≠ 2 ∨ z.centroids.rowTotal ≠ z.settings.k :=
        not_and_or.1 hshape
      simp [hepoch, hshape, hrefused]

theorem map_ordered (z : Snapshot α) : z.ordered.map (·.1) = z.ids :=
  List.map_mergeSort fun _ _ _ _ => rfl

theorem mem_ordered {z : Snapshot α} {entry : Int × PartitionSnapshot α} :
    entry ∈ z.ordered ↔ entry ∈ z.partitions :=
  List.mem_mergeSort

theorem Accepted.ordered_ne {z : Snapshot α} (h : z.Accepted) : z.ordered ≠ [] := by
  intro hnil
  have hlength : z.ordered.length = z.partitions.length := List.length_mergeSort _
  rw [hnil] at hlength
  exact h.partitions_ne (List.eq_nil_of_length_eq_zero hlength.symm)

end Snapshot

/-! ## Which snapshot is taken up -/

namespace Iteration

/-- The snapshot that is asked for: the one given, or else that of the checkpoint. -/
def askedFor (plan : Plan α) (given : Option (Snapshot α)) (slot : Slot α) : Outcome (Snapshot α) :=
  match given with
  | some z => z.validate.map fun _ => z
  | none => if plan.period.isNone then .error (.configuration .noSnapshot) else slot.load

/-- The snapshot that is asked for can be read, is accepted, and is one of the same settings. -/
def TakenUp (plan : Plan α) (given : Option (Snapshot α)) (slot : Slot α) (z : Snapshot α) : Prop :=
  askedFor plan given slot = .ok z ∧ z.settings.same plan.settings

variable {plan : Plan α} {given : Option (Snapshot α)} {z : Snapshot α}

theorem accepted_of_askedFor {slot : Slot α} (h : askedFor plan given slot = .ok z) :
    z.Accepted := by
  rw [← Snapshot.validate_eq_ok]
  cases given with
  | some y =>
    obtain ⟨_, hvalid, rfl⟩ := map_eq_ok.1 h
    exact hvalid
  | none =>
    simp only [askedFor] at h
    split at h
    · cases h
    · unfold Slot.load at h
      obtain ⟨held, -, h⟩ := bind_eq_ok.1 h
      cases held with
      | none => cases h
      | some y =>
        obtain ⟨_, hvalid, h⟩ := bind_eq_ok.1 h
        cases h
        exact hvalid

theorem snapshotFor_eq (plan : Plan α) (given : Option (Snapshot α)) (s : Session α) :
    snapshotFor plan given s = Step.ofOutcome (askedFor plan given s.slot) s := by
  cases given with
  | some y =>
    simp only [snapshotFor, askedFor]
    cases y.validate <;> rfl
  | none =>
    simp only [snapshotFor, askedFor]
    split <;> rfl

theorem snapshotFor_ends (plan : Plan α) (given : Option (Snapshot α)) (s : Session α) :
    (snapshotFor plan given).Ends s (fun z s' => askedFor plan given s.slot = .ok z ∧ s' = s)
      (fun e s' => askedFor plan given s.slot = .error e ∧ s' = s) := by
  unfold Step.Ends
  rw [snapshotFor_eq]
  exact Step.ends_ofOutcome_of (fun _ h => ⟨h, rfl⟩) fun _ h => ⟨h, rfl⟩

end Iteration

/-! ## Operators of accepted snapshots -/

/-- Points are stored as an array with two axes. -/
def PartitionSnapshot.HasMatrix (p : PartitionSnapshot α) : Prop :=
  ∃ q, p.points = some q ∧ q.rank = 2

/-- The operator is a new one that has taken up what is stored of its partition. -/
def Assigner.Restored (entry : Int × PartitionSnapshot α) (a : Assigner α) : Prop :=
  ∃ q, entry.2.points = some q ∧ q.rank = 2 ∧
    a = (Assigner.fresh entry.1).filled entry.2 q .accumulating

namespace Assigner.Restored

variable {entry : Int × PartitionSnapshot α} {a : Assigner α} (h : Restored entry a)

include h

theorem id_eq : a.id = entry.1 := by
  obtain ⟨q, -, -, rfl⟩ := h
  rfl

theorem phase_eq : a.phase = .accumulating := by
  obtain ⟨q, -, -, rfl⟩ := h
  rfl

theorem pending_eq : a.pending = entry.2.pending := by
  obtain ⟨q, -, -, rfl⟩ := h
  rfl

theorem hasMatrix : entry.2.HasMatrix := by
  obtain ⟨q, hpoints, hrank, -⟩ := h
  exact ⟨q, hpoints, hrank⟩

end Assigner.Restored

section Restored

variable {entries : List (Int × PartitionSnapshot α)} {assigners : List (Assigner α)}
  (h : List.Forall₂ Assigner.Restored entries assigners)

include h

theorem ids_of_restored : entries.map (·.1) = assigners.map (·.id) := by
  rw [← List.forall₂_eq_eq_eq, List.forall₂_map_left_iff, List.forall₂_map_right_iff]
  exact h.imp fun _ _ ha => Assigner.Restored.id_eq ha |>.symm

theorem pending_of_restored : entries.map (·.2.pending) = assigners.map (·.pending) := by
  rw [← List.forall₂_eq_eq_eq, List.forall₂_map_left_iff, List.forall₂_map_right_iff]
  exact h.imp fun _ _ ha => Assigner.Restored.pending_eq ha |>.symm

theorem hasMatrix_of_restored : ∀ entry ∈ entries, entry.2.HasMatrix :=
  ((List.forall₂_and_left entries assigners).1
    (h.imp fun _ _ ha => ⟨Assigner.Restored.hasMatrix ha, ha⟩)).1

end Restored

namespace Iteration

variable {plan : Plan α} {given : Option (Snapshot α)} {z : Snapshot α} {s : Session α}

/-- Of what is accepted, a new operator refuses nothing but points that are no matrix. -/
theorem restorePartition_ends {epoch : Int} {entry : Int × PartitionSnapshot α}
    (h : Snapshot.Fits epoch entry) :
    (restorePartition entry).Ends s
      (fun _ s' => ∃ a journal, Assigner.Restored entry a ∧
        s' = { s with assigners := s.assigners ++ [a], journal })
      (fun _ s' => ¬ entry.2.HasMatrix ∧ s' = s) := by
  have hbetween : entry.2.phase ≠ .known .firing := by
    rw [h.phase_eq]
    decide
  cases hacceptable : (Assigner.fresh entry.1 : Assigner α).acceptable entry.2 with
  | error e =>
    have hrestore : (Assigner.fresh entry.1).restore entry.2 = (.error e, .fresh entry.1) := by
      rw [Assigner.restore, hacceptable]
    simp only [restorePartition, hrestore, Step.ends_bind, Step.ends_ofOutcome_error]
    refine ⟨?_, trivial⟩
    rintro ⟨q, hpoints, hrank⟩
    have hok := Assigner.acceptable_eq_ok.2
      ⟨Assigner.vacant_fresh entry.1, ⟨h.id_eq, hbetween, hpoints, hrank⟩⟩
    rw [hacceptable] at hok
    cases hok
  | ok q =>
    obtain ⟨-, hq⟩ := Assigner.acceptable_eq_ok.1 hacceptable
    have hrestore := Assigner.restore_of_acceptable hacceptable h.phase_eq
    simp only [restorePartition, hrestore, Step.ends_bind, Step.ends_ofOutcome_ok, Step.ends_note,
      Step.ends_modify]
    exact ⟨_, _, ⟨q, hq.points_eq, hq.rank_eq, rfl⟩, rfl⟩

/-- So the operators are there up to the first partition whose points are no matrix. -/
theorem restoreEntries_ends {epoch : Int} {entries : List (Int × PartitionSnapshot α)}
    (h : ∀ entry ∈ entries, Snapshot.Fits epoch entry) (hs : s.assigners = []) :
    (entries.forM restorePartition).Ends s
      (fun _ s' => List.Forall₂ Assigner.Restored entries s'.assigners ∧
        ∃ journal, s' = { s with assigners := s'.assigners, journal })
      (fun _ s' => ∃ done entry rest, entries = done ++ entry :: rest ∧ ¬ entry.2.HasMatrix ∧
        List.Forall₂ Assigner.Restored done s'.assigners ∧
        ∃ journal, s' = { s with assigners := s'.assigners, journal }) := by
  refine Step.ends_forM (I := fun done s' => List.Forall₂ Assigner.Restored done s'.assigners ∧
    ∃ journal, s' = { s with assigners := s'.assigners, journal })
    ⟨hs ▸ .nil, s.journal, rfl⟩ ?_
  rintro done entry rest s' hall ⟨hdone, journal, hsame⟩
  have hentry : entry ∈ entries := by
    rw [hall]
    exact List.mem_append_right _ List.mem_cons_self
  refine (restorePartition_ends (h entry hentry)).mono ?_ ?_
  · rintro _ s'' ⟨a, journal', ha, rfl⟩
    exact ⟨List.rel_append hdone (.cons ha .nil), journal', by rw [hsame]⟩
  · rintro _ s'' ⟨hmatrix, rfl⟩
    exact ⟨done, entry, rest, hall, hmatrix, hdone, journal, hsame⟩

/-- A snapshot is refused, and then nothing has changed; or it is taken up as far as there are
    matrices of points. -/
theorem takeUp_accepts (plan : Plan α) (given : Option (Snapshot α)) (s : Session α) :
    (takeUp plan given).Ends s
      (fun z s' => TakenUp plan given s.slot z ∧
        List.Forall₂ Assigner.Restored z.ordered s'.assigners ∧ s'.pool = s.pool)
      (fun _ s' => ((∀ z, ¬ TakenUp plan given s.slot z) ∧ s' = s) ∨
        ∃ z done entry rest, TakenUp plan given s.slot z ∧ z.ordered = done ++ entry :: rest ∧
          ¬ entry.2.HasMatrix ∧ List.Forall₂ Assigner.Restored done s'.assigners ∧
          s'.pool = s.pool) := by
  rw [takeUp, Step.ends_bind]
  refine (snapshotFor_ends plan given s).mono ?_ ?_
  · rintro z s' ⟨hz, rfl⟩
    split
    · rename_i hother
      refine .inl ⟨fun y hy => ?_, rfl⟩
      rw [TakenUp, hz, Except.ok.injEq] at hy
      obtain ⟨rfl, hsame⟩ := hy
      simp [hsame] at hother
    · rename_i hsame
      have htaken : TakenUp plan given s'.slot z := ⟨hz, by simpa using hsame⟩
      have hfits : ∀ entry ∈ z.ordered, Snapshot.Fits z.epoch entry := fun entry hentry =>
        (accepted_of_askedFor hz).fits entry (Snapshot.mem_ordered.1 hentry)
      simp only [Step.ends_bind, Step.ends_modify, Step.ends_note, Step.ends_pure]
      refine (restoreEntries_ends hfits rfl).mono ?_ ?_
      · rintro _ s'' ⟨hall, journal, hsame⟩
        exact ⟨htaken, hall, by rw [hsame]⟩
      · rintro _ s'' ⟨done, entry, rest, hsplit, hmatrix, hdone, journal, hsame⟩
        exact .inr ⟨z, done, entry, rest, htaken, hsplit, hmatrix, hdone, by rw [hsame]⟩
  · rintro e s' ⟨hrefused, rfl⟩
    refine .inl ⟨fun z hz => ?_, rfl⟩
    rw [TakenUp, hrefused] at hz
    cases hz.1

end Iteration
end ClusterRounds
