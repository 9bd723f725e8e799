/-
  ClusterRounds.Proofs.Rounds

  Sessions that carry out a task. `Ready` says that a session can go on from a mark,
  whoever works in it: the operators stand before the round's boundary, the barrier is
  closed, and collector and checkpoint are in order. A round takes a ready session to a
  ready session, and the checkpoint then holds what it held before or records the mark.
  With any measure the round comes to what the partitions have brought
  (`round_brings`); with one that answers as the task's does it makes the task's turn
  (`round_ends`), and undisturbed it only fails if the task has no turn.
-/

import ClusterRounds.Proofs.Course
import ClusterRounds.Proofs.Interleaving

namespace ClusterRounds

variable {α : Type}

/-! ## Operators of all partitions -/

/-- The operators of all partitions stand before the boundary of a round. -/
structure Lineup (assigners : List (Assigner α)) (points sets : List (Tensor α))
    (epoch : Int) : Prop where
  length : assigners.length = points.length
  stands : ∀ (i : Nat) p, points[i]? = some p →
    ∃ a, assigners[i]? = some a ∧ a.Stands i p sets epoch

namespace Lineup

variable {assigners : List (Assigner α)} {points sets : List (Tensor α)} {epoch : Int}
  (h : Lineup assigners points sets epoch)

include h

theorem of_getElem? {i : Nat} {a : Assigner α} (ha : assigners[i]? = some a) :
    ∃ p, points[i]? = some p ∧ a.Stands i p sets epoch := by
  have hi : i < points.length := h.length ▸ (List.getElem?_eq_some_iff.1 ha).1
  obtain ⟨b, hb, hs⟩ := h.stands i points[i] (List.getElem?_eq_getElem hi)
  rw [ha, Option.some.injEq] at hb
  exact ⟨points[i], List.getElem?_eq_getElem hi, hb ▸ hs⟩

theorem onePerPartition : OnePerPartition assigners := by
  unfold OnePerPartition
  have hids : assigners.map (·.id) = (List.range assigners.length).map fun (i : Nat) => (i : Int) := by
    apply List.ext_getElem (by simp)
    intro i hi _
    rw [List.length_map] at hi
    obtain ⟨p, -, hs⟩ := h.of_getElem? (List.getElem?_eq_getElem hi)
    simp [hs.id_eq]
  rw [hids]

theorem receive (centroids : Tensor α) :
    ∃ assigners', assigners.mapM (·.receive centroids) = .ok assigners' ∧
      Lineup assigners' points (sets ++ [centroids]) epoch := by
  have hall : ∀ a ∈ assigners, ∃ a', a.receive centroids = .ok a' := by
    intro a ha
    obtain ⟨i, hi⟩ := List.mem_iff_getElem?.1 ha
    obtain ⟨p, -, hs⟩ := h.of_getElem? hi
    obtain ⟨a', ha', -⟩ := hs.receive centroids
    exact ⟨a', ha'⟩
  obtain ⟨assigners', hok⟩ : ∃ assigners', assigners.mapM (·.receive centroids) = .ok assigners' := by
    choose! next hnext using hall
    exact ⟨_, mapM_eq_ok_map hnext⟩
  refine ⟨assigners', hok, ?_, fun i p hp => ?_⟩
  · rw [← h.length]
    exact (mapM_eq_ok.1 hok).length_eq.symm
  · obtain ⟨a, ha, hs⟩ := h.stands i p hp
    obtain ⟨a', ha', hreceive⟩ := mapM_eq_ok_getElem? hok ha
    obtain ⟨a'', hreceive', hs'⟩ := hs.receive centroids
    rw [hreceive, Except.ok.injEq] at hreceive'
    exact ⟨a', ha', hreceive' ▸ hs'⟩

end Lineup

namespace Iteration

/-- Operators that can all be stored are stored one after the other. -/
theorem snapshotAll_ok : ∀ {assigners : List (Assigner α)},
    (∀ a ∈ assigners, ∃ stored, a.snapshot = .ok stored) →
    ∃ stored assigners', snapshotAll assigners = (.ok stored, assigners') ∧
      stored.length = assigners.length ∧ assigners'.length = assigners.length ∧
      ∀ (i : Nat) a, assigners[i]? = some a → ∃ z a', a.snapshot = .ok (z, a') ∧
        stored[i]? = some (a'.id, z) ∧ assigners'[i]? = some a'
  | [], _ => ⟨[], [], rfl, rfl, rfl, fun _ _ h => nomatch h⟩
  | a :: rest, h => by
    obtain ⟨⟨z, a'⟩, ha⟩ := h a (by simp)
    have hall : ∀ b ∈ rest, ∃ stored, b.snapshot = .ok stored := fun b hb => h b (by simp [hb])
    obtain ⟨stored, rest', hrest, hlen, hlen', hget⟩ := snapshotAll_ok hall
    refine ⟨(a'.id, z) :: stored, a' :: rest', ?_, by simp [hlen], by simp [hlen'], ?_⟩
    · simp [snapshotAll, ha, hrest, Except.map]
    · intro i b hb
      cases i with
      | zero =>
        cases hb
        exact ⟨z, a', ha, rfl, rfl⟩
      | succ i => exact hget i b hb

end Iteration

/-! ## Checkpoints -/

/-- The snapshot records a mark of a task: it holds what is needed to go on from there. -/
structure Snapshot.Records (z : Snapshot α) (task : Task α) (mark : Mark α) : Prop where
  epoch_eq : z.epoch = mark.epoch
  centroids_eq : z.centroids = mark.centroids
  settings_eq : z.settings = task.settings
  inertia_eq : z.inertia = mark.inertia
  length : z.partitions.length = task.points.length
  partitions : ∀ (i : Nat) p, task.points[i]? = some p → ∃ q last,
    z.partitions[i]? = some ((i : Int), ⟨i, some q, [mark.centroids], last, .known .accumulating⟩) ∧
    p.SamePoints q ∧ q.rank = 2 ∧ ∀ l, last = some l → l < mark.epoch

/-- The number of the round before which a checkpoint was saved. -/
def Event.saved? : Event α → Option Int
  | .saved round _ => some (round - 1)
  | _ => none

/-- The numbers of the rounds before which checkpoints have been saved. -/
def Session.saved (s : Session α) : List Int := s.journal.filterMap Event.saved?

/-- Nothing stands in the way of saving a checkpoint and of removing it. -/
structure Slot.Usable (slot : Slot α) : Prop where
  writable : ∀ n, slot.obstacle n = none
  removable : ∃ slot', slot.delete = (.ok (), slot')

/-- What the rounds from a mark on leave at the place of the checkpoint: what was there, or a record
    of a mark that they came to. -/
def Slot.Kept [Scalar α] (slot slot' : Slot α) (task : Task α) (mark : Mark α) : Prop :=
  slot' = slot ∨ ∃ z mid, task.Leads mark mid ∧ z.Records task mid ∧ slot'.held = .snapshot z ∧
    slot'.Usable ∧ slot.saves < slot'.saves

/-- What the preparation of a round leaves there: what was there, or the record of the mark. -/
def Slot.Saved (slot slot' : Slot α) (task : Task α) (mark : Mark α) : Prop :=
  slot' = slot ∨ ∃ z, z.Records task mark ∧ slot'.held = .snapshot z ∧ slot'.Usable ∧
    slot.saves < slot'.saves

theorem Slot.Saved.kept [Scalar α] {slot slot' : Slot α} {task : Task α} {mark : Mark α}
    (h : slot.Saved slot' task mark) : slot.Kept slot' task mark := by
  rcases h with h | ⟨z, hz, h⟩
  · exact .inl h
  · exact .inr ⟨z, mark, .here, hz, h⟩

namespace Slot.Kept

variable [Scalar α] {slot slot' slot'' : Slot α} {task : Task α} {mark mid : Mark α}

theorem saves_le (h : slot.Kept slot' task mark) : slot.saves ≤ slot'.saves := by
  rcases h with rfl | ⟨_, _, _, _, _, _, h⟩
  · exact Nat.le_refl _
  · exact Nat.le_of_lt h

/-- One round after another. -/
theorem trans (h : slot.Kept slot' task mark) (hmid : task.Leads mark mid)
    (h' : slot'.Kept slot'' task mid) : slot.Kept slot'' task mark := by
  rcases h' with rfl | ⟨z, far, hfar, hz, hheld, hu, hsaves⟩
  · exact h
  · exact .inr ⟨z, far, hmid.trans hfar, hz, hheld, hu, Nat.lt_of_le_of_lt h.saves_le hsaves⟩

end Slot.Kept

theorem Slot.Usable.save {slot : Slot α} (h : slot.Usable) (z : Snapshot α) :
    ∃ slot', slot.save z = (.ok (), slot') ∧ slot'.held = .snapshot z ∧ slot'.Usable ∧
      slot.saves < slot'.saves := by
  refine ⟨{ slot with saves := slot.saves + 1, held := .snapshot z, staged := none }, ?_, rfl,
    ⟨h.writable, _, rfl⟩, Nat.lt_succ_self _⟩
  simp only [Slot.save, h.writable]

/-! ## Ready sessions -/

/-- The plan is one for the task; its measure may break down. -/
structure Plan.Serves (plan : Plan α) (task : Task α) : Prop where
  settings_eq : plan.settings = task.settings
  measure : plan.measure.Follows task.measure

/-- A plan for the task that nothing disturbs: the measure does not break down, no round is cut off,
    and the number of workers can be told. -/
structure Plan.Calm (plan : Plan α) (task : Task α) : Prop where
  measure : plan.measure.Matches task.measure
  unlimited : plan.execution.timeout = .null
  workers : ∃ n, plan.execution.effectiveWorkers = .ok n

/-- The session can go on from a mark. -/
structure Ready [Scalar α] (task : Task α) (mark : Mark α) (handedOut : Bool)
    (s : Session α) : Prop where
  lineup : Lineup s.assigners task.points (if handedOut then [mark.centroids] else []) mark.epoch
  barrier : ∃ stale, s.barrier = some ⟨s.assigners.length, none, stale⟩
  collector : s.collector.k = task.settings.k
  inertia : s.inertia = mark.inertia
  slot : s.slot.Usable

/-- The session stands at a mark, whatever may stand in the way of its checkpoint. -/
structure Poised (task : Task α) (mark : Mark α) (handedOut : Bool) (s : Session α) : Prop where
  lineup : Lineup s.assigners task.points (if handedOut then [mark.centroids] else []) mark.epoch
  barrier : ∃ stale, s.barrier = some ⟨s.assigners.length, none, stale⟩
  collector : s.collector.k = task.settings.k
  inertia : s.inertia = mark.inertia

section Marks

variable {task : Task α} {mark : Mark α} {handedOut : Bool} {s t u : Session α}

theorem Ready.poised [Scalar α] (h : Ready task mark handedOut s) :
    Poised task mark handedOut s := ⟨h.lineup, h.barrier, h.collector, h.inertia⟩

theorem Poised.ready [Scalar α] (h : Poised task mark handedOut s) (hslot : s.slot.Usable) :
    Ready task mark handedOut s := ⟨h.lineup, h.barrier, h.collector, h.inertia, hslot⟩

/-- After a round the inertia is known and the centroids are. -/
theorem Poised.after {epoch : Int} {c : Tensor α} {inertia : List α}
    (h : Poised task ⟨epoch, c, inertia⟩ false s) (c' : Tensor α) (x : α) :
    Poised task ⟨epoch, c', inertia ++ [x]⟩ false { s with inertia := s.inertia ++ [x] } :=
  ⟨h.lineup, h.barrier, h.collector, congrArg (· ++ [x]) h.inertia⟩

namespace Session

/-- The place of the checkpoint is as it was, and nothing has been saved there. -/
structure SameSaves (s t : Session α) : Prop where
  slot_eq : t.slot = s.slot
  saved_eq : t.saved = s.saved

theorem SameSaves.refl (s : Session α) : s.SameSaves s := ⟨rfl, rfl⟩

theorem SameSaves.trans (h : s.SameSaves t) (h' : t.SameSaves u) : s.SameSaves u :=
  ⟨h'.slot_eq.trans h.slot_eq, h'.saved_eq.trans h.saved_eq⟩

theorem SameElse.sameSaves (h : s.SameElse t) : s.SameSaves t :=
  ⟨h.slot_eq, congrArg (List.filterMap Event.saved?) h.journal_eq⟩

/-- An event that tells of no save. -/
theorem saved_noted {e : Event α} (he : e.saved? = none) :
    ({ s with journal := s.journal ++ [e] } : Session α).saved = s.saved := by
  simp [saved, he]

/-- Two sessions that differ at most in what collector and criterion remember, in the clock and in
    the journal, where nothing has been saved in between. -/
structure SameHoldings (s t : Session α) : Prop where
  eq : t = { s with collector := ⟨s.collector.k, t.collector.emptyClusters⟩,
                    criterion := t.criterion, clock := t.clock, journal := t.journal }
  saved_eq : t.saved = s.saved

namespace SameHoldings

theorem refl (s : Session α) : s.SameHoldings s := ⟨rfl, rfl⟩

theorem trans (h : s.SameHoldings t) (h' : t.SameHoldings u) : s.SameHoldings u := by
  refine ⟨?_, h'.saved_eq.trans h.saved_eq⟩
  rw [h'.eq, h.eq]

/-- The clock is read. -/
theorem clock (s : Session α) (clock : Clock) : s.SameHoldings { s with clock } := ⟨rfl, rfl⟩

/-- Another event is noted. -/
theorem noted (h : s.SameHoldings t) {e : Event α} (he : e.saved? = none) :
    s.SameHoldings { t with journal := t.journal ++ [e] } := by
  refine ⟨?_, (saved_noted he).trans h.saved_eq⟩
  rw [h.eq]

variable (h : s.SameHoldings t)

include h

theorem assigners_eq : t.assigners = s.assigners := (congrArg Session.assigners h.eq :)

theorem sameSaves : s.SameSaves t := ⟨(congrArg Session.slot h.eq :), h.saved_eq⟩

theorem poised (hs : Poised task mark handedOut s) : Poised task mark handedOut t := by
  rw [h.eq]
  exact ⟨hs.lineup, hs.barrier, hs.collector, hs.inertia⟩

end SameHoldings

end Session

end Marks

namespace Iteration

variable [Scalar α] {plan : Plan α} {task : Task α} {mark : Mark α} {width : Nat}
  {s s' : Session α} {handedOut : Bool}

omit [Scalar α] in
/-- The centroids are handed out. -/
theorem broadcast_ends (h : Poised task mark false s) :
    (broadcast mark.centroids).Ends s
      (fun _ s' => Poised task mark true s' ∧ ∃ assigners, s' = { s with assigners })
      (fun _ _ => False) := by
  obtain ⟨assigners, hreceive, hlineup⟩ := h.lineup.receive mark.centroids
  simp only [broadcast, Step.ends_bind, Step.ends_get, hreceive, Step.ends_ofOutcome_ok,
    Step.ends_set]
  obtain ⟨stale, hb⟩ := h.barrier
  refine ⟨⟨hlineup, ⟨stale, ?_⟩, h.collector, h.inertia⟩, assigners, rfl⟩
  rw [hb, hlineup.length, h.lineup.length]

omit [Scalar α] in
/-- A snapshot that is taken records the mark. -/
theorem takeSnapshot_ends (hplan : plan.settings = task.settings)
    (hshape : task.Shaped width mark.centroids) (h : Poised task mark true s) :
    (takeSnapshot plan mark.epoch mark.centroids).Ends s
      (fun z s' => z.Records task mark ∧ Poised task mark true s' ∧
        ∃ assigners, s' = { s with assigners })
      (fun _ _ => False) := by
  have hall : ∀ a ∈ s.assigners, ∃ stored, a.snapshot = .ok stored := by
    intro a ha
    obtain ⟨i, hi⟩ := List.mem_iff_getElem?.1 ha
    obtain ⟨p, hp, hs⟩ := h.lineup.of_getElem? hi
    obtain ⟨_, _, _, hsnap, _⟩ := hs.snapshot (hshape.rank_points (List.mem_of_getElem? hp))
    exact ⟨_, hsnap⟩
  obtain ⟨stored, assigners, hstored, hlen, hlen', hget⟩ := snapshotAll_ok hall
  simp only [takeSnapshot, Step.ends_bind, Step.ends_get, hstored, Step.ends_set,
    Step.ends_ofOutcome_ok, Step.ends_pure]
  -- what is stored of each partition, and where its operator stands afterwards
  have hpartition : ∀ (i : Nat) p, task.points[i]? = some p → ∃ q last a,
      stored[i]? = some ((i : Int), ⟨i, some q, [mark.centroids], last, .known .accumulating⟩) ∧
      p.SamePoints q ∧ q.rank = 2 ∧ (∀ l, last = some l → l < mark.epoch) ∧
      assigners[i]? = some a ∧ a.Stands i p [mark.centroids] mark.epoch := by
    intro i p hp
    obtain ⟨a, ha, hs⟩ := h.lineup.stands i p hp
    obtain ⟨q, same, hq, hsnap, hs'⟩ := hs.snapshot (hshape.rank_points (List.mem_of_getElem? hp))
    obtain ⟨z, a', hsnap', hz, ha'⟩ := hget i a ha
    rw [hsnap, Except.ok.injEq, Prod.mk.injEq] at hsnap'
    obtain ⟨rfl, rfl⟩ := hsnap'
    exact ⟨q, a.lastEpoch, _, by rw [hz, hs'.id_eq]; rfl, same, hq, hs.before, ha', hs'⟩
  -- the record, and a lineup that stands where it stood
  refine ⟨⟨rfl, rfl, hplan, h.inertia, hlen.trans h.lineup.length, ?_⟩,
    ⟨⟨hlen'.trans h.lineup.length, ?_⟩, ?_, h.collector, h.inertia⟩, assigners, rfl⟩
  · intro i p hp
    obtain ⟨q, last, _, hz, same, hq, hlast, -⟩ := hpartition i p hp
    exact ⟨q, last, hz, same, hq, hlast⟩
  · intro i p hp
    obtain ⟨_, _, a, _, _, _, _, ha, hs⟩ := hpartition i p hp
    exact ⟨a, ha, hs⟩
  · obtain ⟨stale, hb⟩ := h.barrier
    exact ⟨stale, by rw [hb, hlen']⟩

omit [Scalar α] in
/-- A snapshot that is taken is put at the place of the checkpoint, or the save fails. -/
theorem save_ends (z : Snapshot α) (s : Session α) :
    (save z).Ends s
      (fun _ s' => ∃ slot, s.slot.save z = (.ok (), slot) ∧
        s' = { s with slot, journal := s.journal ++ [.saved (z.epoch + 1) slot.location] })
      (fun e s' => ∃ slot, s.slot.save z = (.error e, slot) ∧ s' = { s with slot }) := by
  simp only [save, Step.ends_bind, Step.ends_get, Step.ends_set, Step.ends_note]
  refine Step.ends_ofOutcome_of (fun done hdone => ?_) fun e he => ?_
  · exact ⟨_, Prod.ext hdone rfl, rfl⟩
  · exact ⟨_, Prod.ext he rfl, rfl⟩

/-- Does the period want a checkpoint before a round? -/
def SavesBefore (plan : Plan α) (epoch : Int) : Prop :=
  ∃ period, plan.period = some period ∧ period.divides epoch

/-- What comes before a round at the place of the checkpoint: nothing, or a snapshot is taken and
    saved there. -/
inductive Checkpointed (plan : Plan α) (epoch : Int) (centroids : Tensor α) (s : Session α) :
    Session α → Prop
  | skipped (unwanted : ¬ SavesBefore plan epoch) : Checkpointed plan epoch centroids s s
  | saved {z : Snapshot α} {t : Session α} {slot : Slot α} (wanted : SavesBefore plan epoch)
      (taken : takeSnapshot plan epoch centroids s = .ok z t)
      (save : t.slot.save z = (.ok (), slot)) :
      Checkpointed plan epoch centroids s
        { t with slot, journal := t.journal ++ [.saved (z.epoch + 1) slot.location] }

omit [Scalar α] in
theorem checkpoint_cases (plan : Plan α) (epoch : Int) (centroids : Tensor α) (s : Session α) :
    (checkpoint plan epoch centroids).Ends s
      (fun _ s' => Checkpointed plan epoch centroids s s')
      (fun e s' => takeSnapshot plan epoch centroids s = .error e s' ∨ ∃ z t slot,
        takeSnapshot plan epoch centroids s = .ok z t ∧ t.slot.save z = (.error e, slot) ∧
        s' = { t with slot }) := by
  unfold checkpoint
  split
  · rename_i hperiod
    refine .skipped ?_
    rintro ⟨period, hsome, -⟩
    rw [hperiod] at hsome
    cases hsome
  · rename_i period hperiod
    split
    · rename_i hdivides
      rw [Step.ends_bind, Step.Ends]
      cases htaken : takeSnapshot plan epoch centroids s with
      | error e t => exact .inl rfl
      | ok z t =>
        refine (save_ends z t).mono (fun _ s' hs' => ?_) fun e s' hs' => ?_
        · obtain ⟨slot, hsave, rfl⟩ := hs'
          exact .saved ⟨period, hperiod, hdivides⟩ htaken hsave
        · obtain ⟨slot, hsave, rfl⟩ := hs'
          exact .inr ⟨z, t, slot, rfl, hsave, rfl⟩
    · rename_i hdivides
      refine .skipped ?_
      rintro ⟨period', hsome, hdivides'⟩
      rw [hperiod, Option.some.injEq] at hsome
      exact hdivides (hsome ▸ hdivides')

/-- A checkpoint is saved, or not, as the round's number wants it. -/
theorem checkpoint_ends (hplan : plan.settings = task.settings)
    (hshape : task.Shaped width mark.centroids) (h : Ready task mark true s) :
    (checkpoint plan mark.epoch mark.centroids).Ends s
      (fun _ s' => Ready task mark true s' ∧ s.slot.Saved s'.slot task mark ∧
        s'.criterion = s.criterion)
      (fun _ _ => False) := by
  have htake := takeSnapshot_ends hplan hshape h.poised
  refine (checkpoint_cases plan mark.epoch mark.centroids s).mono (fun _ s' hs' => ?_)
    fun e s' hs' => ?_
  · cases hs' with
    | skipped => exact ⟨h, .inl rfl, rfl⟩
    | @saved z t slot wanted taken save =>
      obtain ⟨hrecords, h', assigners, rfl⟩ := htake.of_ok taken
      -- the record of this very mark takes the place of an older one
      obtain ⟨slot', hsave, hheld, husable, hsaves⟩ := h.slot.save z
      cases hsave.symm.trans save
      exact ⟨⟨h'.lineup, h'.barrier, h'.collector, h'.inertia, husable⟩,
        .inr ⟨z, hrecords, hheld, husable, hsaves⟩, rfl⟩
  · rcases hs' with htaken | ⟨z, t, slot, htaken, hfails, -⟩
    · exact htake.of_error htaken
    · obtain ⟨-, -, assigners, rfl⟩ := htake.of_ok htaken
      obtain ⟨slot', hsave, -⟩ := h.slot.save z
      cases hsave.symm.trans hfails

/-- Before a round the centroids are handed out and a checkpoint is saved. -/
theorem prepare_ends (hplan : plan.settings = task.settings)
    (hshape : task.Shaped width mark.centroids) {here : Standing α}
    (hepoch : here.epoch = mark.epoch) (hcentroids : here.centroids = mark.centroids)
    (h : Ready task mark here.handedOut s) :
    (prepare plan here).Ends s
      (fun _ s' => Ready task mark true s' ∧ s.slot.Saved s'.slot task mark ∧
        s'.criterion = s.criterion)
      (fun _ _ => False) := by
  unfold prepare
  rw [hepoch, hcentroids]
  cases hhanded : here.handedOut with
  | true =>
    rw [hhanded] at h
    exact ⟨h, .inl rfl, rfl⟩
  | false =>
    rw [hhanded] at h
    simp only [Bool.not_false, if_true, Step.ends_bind]
    refine (broadcast_ends h.poised).mono (fun _ s' hs' => ?_) fun _ _ h' => h'
    obtain ⟨h', assigners, rfl⟩ := hs'
    exact checkpoint_ends hplan hshape (h'.ready h.slot)

/-- Outputs that the partitions can bring, each at some call of the measure. -/
def Brought (plan : Plan α) (task : Task α) (centroids : Tensor α)
    (outputs : List (PartitionOutput α)) : Prop :=
  List.Forall₂ (fun p o => ∃ call,
    contribution plan.measure task.settings.k centroids call p = .ok o) task.points outputs

/-- Every output is what one of the partitions brings. -/
theorem Brought.of_mem {centroids : Tensor α} {outputs : List (PartitionOutput α)}
    (h : Brought plan task centroids outputs) {o : PartitionOutput α} (ho : o ∈ outputs) :
    ∃ p ∈ task.points, ∃ call,
      contribution plan.measure task.settings.k centroids call p = .ok o := by
  obtain ⟨hlength, hget⟩ := List.forall₂_iff_get.1 h
  obtain ⟨i, hi, rfl⟩ := List.mem_iff_getElem.1 ho
  have hi' : i < task.points.length := hlength ▸ hi
  exact ⟨_, List.getElem_mem hi', hget i hi' hi⟩

/-- All partitions make their outputs; if no time is set for it, this fails only in one of them. -/
theorem fire_brings (hplan : plan.settings = task.settings)
    (hshape : task.Shaped width mark.centroids) (h : Poised task mark true s) :
    (firePartitions plan mark.epoch mark.centroids).Ends s
      (fun outputs s' => Brought plan task mark.centroids outputs ∧
        Poised task ⟨mark.epoch + 1, mark.centroids, mark.inertia⟩ false s' ∧
        (∀ a ∈ s'.assigners, a.lastEpoch = some mark.epoch) ∧ s.SameElse s')
      (fun _ s' => s.SameElse s' ∧ (plan.execution.timeout = .null → ∃ p ∈ task.points,
        ∃ call e, contribution plan.measure task.settings.k mark.centroids call p = .error e)) := by
  obtain ⟨stale, hb⟩ := h.barrier
  refine (firePartitions_ends h.lineup.onePerPartition hb).mono (fun outputs s' hall => ?_)
    fun e s' hfail => ⟨hfail.1, fun hunlimited => ?_⟩
  · -- a partition brought the contribution of its points, and its operator has moved on
    have hpartition : ∀ (i : Nat) p, task.points[i]? = some p → ∃ o a, outputs[i]? = some o ∧
        (∃ call, contribution plan.measure task.settings.k mark.centroids call p = .ok o) ∧
        s'.assigners[i]? = some a ∧ a.Stands i p [] (mark.epoch + 1) := by
      intro i p hp
      have hmem := List.mem_of_getElem? hp
      obtain ⟨a, ha, hs⟩ := h.lineup.stands i p hp
      obtain ⟨call, o, ha', hcross, ho⟩ := hall.crossed i a ha
      obtain ⟨call', hcontribution, hs'⟩ := hs.crossing plan.measure call (hshape.rank_points hmem)
        hshape.rank (hshape.suits hmem) plan.settings.k
      rw [hcross, hplan] at hcontribution
      refine ⟨o, _, by rw [hs.id_eq] at ho; exact ho, ⟨call', ?_⟩, ha', hs' o hcross⟩
      cases hc : contribution plan.measure task.settings.k mark.centroids call' p with
      | error e => rw [hc] at hcontribution; cases hcontribution
      | ok o' => rw [hc] at hcontribution; cases hcontribution; rfl
    have hsame := hall.same
    have hlength := hall.outputs_length.trans h.lineup.length
    refine ⟨List.forall₂_iff_get.2 ⟨hlength.symm, fun i hi hi' => ?_⟩,
      ⟨⟨hall.length.trans h.lineup.length, fun i p hp => ?_⟩, ⟨[], ?_⟩, ?_, ?_⟩,
      hall.lastEpoch, hsame⟩
    · obtain ⟨o, _, ho, hc, -⟩ := hpartition i _ (List.getElem?_eq_getElem hi)
      rw [List.getElem?_eq_getElem hi', Option.some.injEq] at ho
      rw [List.get_eq_getElem, List.get_eq_getElem, ho]
      exact hc
    · obtain ⟨_, a, _, _, ha, hs⟩ := hpartition i p hp
      exact ⟨a, ha, hs⟩
    · rw [hall.barrier, hall.length]
    · rw [hsame.collector_eq]
      exact h.collector
    · rw [hsame.inertia_eq]
      exact h.inertia
  · -- the partition that failed has no contribution either
    obtain ⟨i, a, call, e, ha, he⟩ := hfail.2 (.inr hunlimited)
    obtain ⟨p, hp, hs⟩ := h.lineup.of_getElem? ha
    have hmem := List.mem_of_getElem? hp
    obtain ⟨call', hcontribution, -⟩ := hs.crossing plan.measure call (hshape.rank_points hmem)
      hshape.rank (hshape.suits hmem) plan.settings.k
    rw [he, hplan] at hcontribution
    refine ⟨p, hmem, call', ?_⟩
    cases hc : contribution plan.measure task.settings.k mark.centroids call' p with
    | error e' => exact ⟨e', rfl⟩
    | ok o => rw [hc] at hcontribution; cases hcontribution

/-- A measure that answers as the task's does makes the outputs of the task. -/
theorem Brought.outputs_eq {outputs : List (PartitionOutput α)}
    (h : Brought plan task mark.centroids outputs) (hm : plan.measure.Follows task.measure)
    (hshape : task.Shaped width mark.centroids) : task.outputs mark.centroids = .ok outputs := by
  obtain ⟨hlength, hall⟩ := List.forall₂_iff_zip.1 h
  refine mapM_eq_ok.2 (List.forall₂_iff_zip.2 ⟨hlength, fun {p o} hpo => ?_⟩)
  have hmem := (List.of_mem_zip hpo).1
  obtain ⟨call, ho⟩ := hall hpo
  exact hm.contribution (hshape.rank_points hmem) hshape.rank (hshape.suits hmem) ho

/-- If a partition makes no output by a measure that does not break down, the task has none. -/
theorem outputs_ne_of_error (hm : plan.measure.Matches task.measure)
    (hshape : task.Shaped width mark.centroids) {p : Tensor α} (hp : p ∈ task.points) {call : Nat}
    {e : Failure}
    (he : contribution plan.measure task.settings.k mark.centroids call p = .error e)
    (outputs : List (PartitionOutput α)) : task.outputs mark.centroids ≠ .ok outputs := by
  intro houtputs
  obtain ⟨i, hi⟩ := List.mem_iff_getElem?.1 hp
  obtain ⟨o, -, ho⟩ := mapM_eq_ok_getElem? houtputs hi
  rw [hm.contribution (hshape.rank_points hp) hshape.rank (hshape.suits hp), ho] at he
  cases he

/-- The next centroids are those that the outputs make, or it fails as they do. -/
theorem update_ends (hk : s.collector.k = task.settings.k) (outputs : List (PartitionOutput α))
    (centroids : Tensor α) :
    (update outputs centroids).Ends s
      (fun next s' => nextCentroids task.settings.k outputs centroids = .ok next ∧
        s.SameHoldings s' ∧ s'.criterion = s.criterion)
      (fun e s' => s' = s ∧ nextCentroids task.settings.k outputs centroids = .error e) := by
  simp only [update, Step.ends_bind, Step.ends_get, nextCentroids_eq_ok, nextCentroids_eq_error]
  apply Step.ends_ofOutcome_of
  · intro merged hmerged
    apply Step.ends_ofOutcome_of
    · intro means hmeans
      -- a collector that was used before differs in what it remembers, not in what it makes
      have hcollector : s.collector.collect means centroids
          = (Collector.ofSize task.settings.k).collect means centroids := by
        rw [← hk]
        rfl
      rw [hcollector]
      apply Step.ends_ofOutcome_of
      · rintro ⟨next, collector⟩ hcollect
        have hsame : s.SameHoldings { s with collector } :=
          ⟨by rw [← (Collector.k_of_collect hcollect).trans hk.symm], rfl⟩
        rw [Step.ends_set]
        split
        · rw [Step.ends_bind, Step.ends_note, Step.ends_pure]
          exact ⟨⟨merged, means, collector, hmerged, hmeans, hcollect⟩, hsame.noted rfl, rfl⟩
        · exact ⟨⟨merged, means, collector, hmerged, hmeans, hcollect⟩, hsame, rfl⟩
      · exact fun e he => ⟨rfl, .inr ⟨merged, hmerged, .inr ⟨means, hmeans, he⟩⟩⟩
    · exact fun e he => ⟨rfl, .inr ⟨merged, hmerged, .inl he⟩⟩
  · exact fun e he => ⟨rfl, .inl he⟩

/-- Afterwards the criterion is asked, and nothing else changes. -/
theorem askCriterion_ends (s : Session α) (round : Int) (next previous : Tensor α) :
    (askCriterion round next previous).Ends s
      (fun stop s' => (s.criterion.ask round next (some previous)).1 = .ok stop ∧
        s.SameHoldings s' ∧ s'.criterion = (s.criterion.ask round next (some previous)).2)
      (fun e s' => s.SameHoldings s' ∧
        (s.criterion.ask round next (some previous)).1 = .error e) := by
  have hsame : s.SameHoldings
      { s with criterion := (s.criterion.ask round next (some previous)).2 } := ⟨rfl, rfl⟩
  simp only [askCriterion, Step.ends_bind, Step.ends_get, Step.ends_set, Step.ends_note]
  apply Step.ends_ofOutcome_of
  · intro stop hstop
    exact ⟨hstop, hsame.noted rfl, rfl⟩
  · exact fun e he => ⟨hsame.noted rfl, he⟩

omit [Scalar α] in
theorem announce_ends (s : Session α) (first : Int) (stop : Bool) (report : RoundReport α) :
    (announce first stop report).Ends s
      (fun _ s' => s.SameHoldings s' ∧ s'.criterion = s.criterion) (fun _ _ => False) := by
  unfold announce
  split
  · exact ⟨(Session.SameHoldings.refl s).noted rfl, rfl⟩
  · exact ⟨.refl s, rfl⟩

/-- A round that is over: what it has made of the standing. -/
structure Standing.After (here : Standing α) (mark : Mark α) (t : Turn α) : Prop where
  epoch_eq : here.epoch = mark.epoch + 1
  centroids_eq : here.centroids = t.next
  handedOut_eq : here.handedOut = false
  converged_eq : here.converged = t.converged
  labels_eq : here.labels = t.labels

/-- What a round does once it is prepared. -/
def work (plan : Plan α) (first : Int) (here : Standing α) : Step α (Standing α × Bool) := do
  let (outputs, assign) ← Step.timed (firePartitions plan here.epoch here.centroids)
  let (next, update) ← Step.timed (update outputs here.centroids)
  let inertia := (outputs.map (·.inertia)).foldl (· + ·) 0
  modify fun s => { s with inertia := s.inertia ++ [inertia] }
  let round := here.epoch + 1
  let change ← Step.ofOperands (Quality.shift here.centroids next)
  let stop ← askCriterion round next here.centroids
  let converged := (← get).criterion.hasConverged || (stop && round < plan.settings.maxRounds)
  announce first stop
    ⟨round, plan.settings.maxRounds, converged, assign.elapsed, update.elapsed, change⟩
  return ({ epoch := round
            centroids := next
            handedOut := false
            converged
            labels := (outputs.map (·.labels)).flatten
            timings := here.timings.addRound assign.elapsed update.elapsed }, stop)

theorem round_eq_bind (plan : Plan α) (first : Int) (here : Standing α) :
    round plan first here = (do
      prepare plan here
      work plan first here) := rfl

/-- A prepared round comes to what the partitions have brought, or fails; if no time is set for it,
    only a partition can fail, or what comes after their outputs. Nothing is saved meanwhile. -/
theorem work_brings (hplan : plan.settings = task.settings)
    (hshape : task.Shaped width mark.centroids) (first : Int) {here : Standing α}
    (hepoch : here.epoch = mark.epoch) (hcentroids : here.centroids = mark.centroids)
    (h : Poised task mark true s) :
    (work plan first here).Ends s
      (fun out s' => ∃ outputs t, Brought plan task mark.centroids outputs ∧
        task.turnFrom s.criterion mark outputs = .ok t ∧ out.2 = t.stop ∧ out.1.After mark t ∧
        Poised task (mark.after t) false s' ∧ s.SameSaves s' ∧
        (∀ a ∈ s'.assigners, a.lastEpoch = some mark.epoch) ∧
        s'.criterion = (s.criterion.ask (mark.epoch + 1) t.next (some mark.centroids)).2)
      (fun e s' => s.SameSaves s' ∧ (plan.execution.timeout = .null →
        (∃ p ∈ task.points, ∃ call e',
          contribution plan.measure task.settings.k mark.centroids call p = .error e') ∨
        ∃ outputs, Brought plan task mark.centroids outputs ∧
          task.turnFrom s.criterion mark outputs = .error e)) := by
  have hfired (clock : Clock) :=
    fire_brings hplan hshape ((Session.SameHoldings.clock s clock).poised h)
  simp only [work, Step.ends_bind]
  rw [hepoch, hcentroids]
  refine Step.ends_timed fun clock => (hfired clock).mono (fun outputs s₁ hs₁ => ?_) fun _ s₁ hs₁ => ?_
  · -- every partition has made its output
    intro stretch clock₁
    obtain ⟨hbrought, h₁, hlast, hsame₁⟩ := hs₁
    have hsaves : s.SameSaves s₁ :=
      (Session.SameHoldings.clock s clock).sameSaves.trans hsame₁.sameSaves
    have hcriterion : s₁.criterion = s.criterion := hsame₁.criterion_eq
    refine Step.ends_timed fun clock₂ =>
      (update_ends (s := { s₁ with clock := clock₂ }) h₁.collector outputs mark.centroids).mono
        (fun next s₂ hs₂ => ?_) fun _ s₂ hs₂ => ?_
    · -- there are next centroids
      intro stretch' clock₃
      obtain ⟨hnext, hsame₂, hc₂⟩ := hs₂
      have hsame : s₁.SameHoldings { s₂ with clock := clock₃ } :=
        ((Session.SameHoldings.clock s₁ clock₂).trans hsame₂).trans (.clock s₂ clock₃)
      have h₂ := (hsame.poised h₁).after next ((outputs.map (·.inertia)).foldl (· + ·) 0)
      have hrecorded (inertia : List α) : s.SameSaves { s₂ with clock := clock₃, inertia } :=
        (hsaves.trans hsame.sameSaves).trans ⟨rfl, rfl⟩
      rw [Step.ends_modify]
      refine Step.ends_ofOutcome_of (fun change hchange => ?_) fun e he => ?_
      · rw [ofOperands_eq_ok] at hchange
        refine (askCriterion_ends _ (mark.epoch + 1) next mark.centroids).mono
          (fun stop s₃ hs₃ => ?_) fun _ s₃ hs₃ => ?_
        · obtain ⟨hanswer, hsame₃, hasked⟩ := hs₃
          simp only [hc₂, hcriterion] at hanswer hasked
          rw [Step.ends_get]
          refine (announce_ends s₃ first stop _).mono (fun _ s₄ hs₄ => ?_) fun _ _ h => h.elim
          obtain ⟨hsame₄, hc₄⟩ := hs₄
          -- all parts of the turn are known
          have hturn := Task.turnFrom_eq_ok.2 ⟨next, change, stop, hnext, hchange, hanswer, rfl⟩
          have hconverged := congrArg Criterion.hasConverged hasked
          have hend := hsame₃.trans hsame₄
          refine ⟨outputs, _, hbrought, hturn, rfl, ⟨rfl, rfl, rfl, by rw [hconverged, hplan], rfl⟩,
            hend.poised h₂, (hrecorded _).trans hend.sameSaves, ?_,
            hc₄.trans hasked⟩
          rw [hend.assigners_eq, hsame.assigners_eq]
          exact hlast
        · refine ⟨(hrecorded _).trans hs₃.1.sameSaves,
            fun _ => .inr ⟨outputs, hbrought, Task.turnFrom_eq_error.2 (.inr ⟨next, hnext, ?_⟩)⟩⟩
          refine .inr ⟨change, hchange, ?_⟩
          rw [← hs₃.2, hc₂, hcriterion]
      · exact ⟨hrecorded _, fun _ => .inr ⟨outputs, hbrought,
          Task.turnFrom_eq_error.2 (.inr ⟨next, hnext, .inl he⟩)⟩⟩
    · intro clock₃
      obtain ⟨rfl, hnone⟩ := hs₂
      exact ⟨hsaves.trans ⟨rfl, rfl⟩,
        fun _ => .inr ⟨outputs, hbrought, Task.turnFrom_eq_error.2 (.inl hnone)⟩⟩
  · intro clock₁
    have hsaves : s.SameSaves s₁ :=
      (Session.SameHoldings.clock s clock).sameSaves.trans hs₁.1.sameSaves
    exact ⟨hsaves.trans ⟨rfl, rfl⟩, fun hunlimited => .inl (hs₁.2 hunlimited)⟩

/-- A round comes to what the partitions have brought, or fails; if no time is set for it, only a
    partition can fail, or what comes after their outputs. Whichever way it ends, the checkpoint
    holds what it held before or the record of the mark. -/
theorem round_brings (hplan : plan.settings = task.settings)
    (hshape : task.Shaped width mark.centroids) (first : Int) {here : Standing α}
    (hepoch : here.epoch = mark.epoch) (hcentroids : here.centroids = mark.centroids)
    (h : Ready task mark here.handedOut s) :
    (round plan first here).Ends s
      (fun out s' => ∃ outputs t, Brought plan task mark.centroids outputs ∧
        task.turnFrom s.criterion mark outputs = .ok t ∧ out.2 = t.stop ∧
        out.1.After mark t ∧ Ready task (mark.after t) false s' ∧ s.slot.Saved s'.slot task mark ∧
        s'.criterion = (s.criterion.ask (mark.epoch + 1) t.next (some mark.centroids)).2)
      (fun e s' => s.slot.Saved s'.slot task mark ∧ (plan.execution.timeout = .null →
        (∃ p ∈ task.points, ∃ call e',
          contribution plan.measure task.settings.k mark.centroids call p = .error e') ∨
        ∃ outputs, Brought plan task mark.centroids outputs ∧
          task.turnFrom s.criterion mark outputs = .error e)) := by
  rw [round_eq_bind, Step.ends_bind]
  refine (prepare_ends hplan hshape hepoch hcentroids h).mono (fun _ s₁ hs₁ => ?_)
    fun _ _ h' => h'.elim
  obtain ⟨h₁, hsaved, hc₁⟩ := hs₁
  rw [← hc₁]
  refine (work_brings hplan hshape first hepoch hcentroids h₁.poised).mono (fun out s' hs' => ?_)
    fun _ s' hs' => ?_
  · obtain ⟨outputs, t, hbrought, hturn, hstop, hafter, h', hsame, -, hasked⟩ := hs'
    refine ⟨outputs, t, hbrought, hturn, hstop, hafter, h'.ready ?_, ?_, hasked⟩
    · rw [hsame.slot_eq]
      exact h₁.slot
    · rw [hsame.slot_eq]
      exact hsaved
  · rw [hs'.1.slot_eq]
    exact ⟨hsaved, hs'.2⟩

/-- A round makes the turn of the task, or fails; then the checkpoint holds what it held before or a
    record of the mark, and if nothing disturbs the round, the task has no turn. -/
theorem round_ends (hplan : plan.Serves task) (hshape : task.Shaped width mark.centroids)
    (first : Int) {here : Standing α} (hepoch : here.epoch = mark.epoch)
    (hcentroids : here.centroids = mark.centroids) (h : Ready task mark here.handedOut s) :
    (round plan first here).Ends s
      (fun out s' => ∃ t, task.turnAsking s.criterion mark = .ok t ∧ out.2 = t.stop ∧
        out.1.After mark t ∧ Ready task (mark.after t) false s' ∧ s.slot.Kept s'.slot task mark ∧
        s'.criterion = (s.criterion.ask (mark.epoch + 1) t.next (some mark.centroids)).2)
      (fun _ s' => s.slot.Kept s'.slot task mark ∧
        (plan.Calm task → ∀ t, task.turnAsking s.criterion mark ≠ .ok t)) := by
  refine (round_brings hplan.settings_eq hshape first hepoch hcentroids h).mono
    (fun out s' hs' => ?_) fun _ s' hs' => ⟨hs'.1.kept, fun hcalm t ht => ?_⟩
  · obtain ⟨outputs, t, hbrought, ht, hstop, hafter, hready, hsaved, hasked⟩ := hs'
    have houtputs := hbrought.outputs_eq hplan.measure hshape
    exact ⟨t, bind_eq_ok.2 ⟨outputs, houtputs, ht⟩, hstop, hafter, hready, hsaved.kept, hasked⟩
  · obtain ⟨outputs, houtputs, ht⟩ := bind_eq_ok.1 ht
    rcases hs'.2 hcalm.unlimited with ⟨p, hp, call, e, he⟩ | ⟨outputs', hbrought, hnone⟩
    · exact outputs_ne_of_error hcalm.measure hshape hp he outputs houtputs
    · -- there is nothing else that could have been brought
      rw [hbrought.outputs_eq hplan.measure hshape, Except.ok.injEq] at houtputs
      rw [houtputs] at hnone
      cases hnone.symm.trans ht

end Iteration
end ClusterRounds
