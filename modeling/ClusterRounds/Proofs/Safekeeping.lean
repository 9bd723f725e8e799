/-
  ClusterRounds.Proofs.Safekeeping

  The checkpoint of a run that is broken off. While a run keeps a checkpoint every `n`
  rounds, the place holds the snapshot of the last save that was completed, and nothing
  of the run is missing from it: `Sheltered` says so of a run that stands before a round.
  Preparing a round and working through it keep that (`prepare_shelters`,
  `work_shelters`), so it holds wherever a run has come to, be it from the first round
  or from a checkpoint, and a failure leaves the place as it was.
-/

import ClusterRounds.Proofs.Passage

namespace ClusterRounds

variable {α : Type}

/-! ## Boundaries that were passed -/

/-- The boundary that is behind an operator before the round of a number; before the first round
    there is none. -/
def roundBefore (epoch : Int) : Option Int := if epoch = 0 then none else some (epoch - 1)

theorem roundBefore_lt {epoch last : Int} (h : roundBefore epoch = some last) : last < epoch := by
  unfold roundBefore at h
  split at h
  · cases h
  · cases h
    omega

theorem roundBefore_succ {epoch : Int} (h : 0 ≤ epoch) : roundBefore (epoch + 1) = some epoch := by
  unfold roundBefore
  rw [if_neg (by omega), Int.add_sub_cancel]

/-- All operators have passed the same boundary last, or none of them any. -/
def Passed (last : Option Int) (assigners : List (Assigner α)) : Prop :=
  ∀ a ∈ assigners, a.lastEpoch = last

namespace Passed

variable {last : Option Int} {assigners : List (Assigner α)} (h : Passed last assigners)

include h

theorem receive {centroids : Tensor α} {assigners' : List (Assigner α)}
    (hreceive : assigners.mapM (·.receive centroids) = .ok assigners') :
    Passed last assigners' := by
  intro b hb
  obtain ⟨i, hi⟩ := List.mem_iff_getElem?.1 hb
  have hlength := (mapM_eq_ok.1 hreceive).length_eq
  have hlt : i < assigners.length := by
    rw [hlength]
    exact (List.getElem?_eq_some_iff.1 hi).1
  obtain ⟨b', hb', hok⟩ := mapM_eq_ok_getElem? hreceive (List.getElem?_eq_getElem hlt)
  rw [hi, Option.some.injEq] at hb'
  rw [Assigner.receive_eq] at hok
  obtain ⟨_, -, hreceived⟩ := map_eq_ok.1 hok
  rw [hb', ← hreceived]
  exact h assigners[i] (List.getElem_mem hlt)

end Passed

theorem Assigner.lastEpoch_snapshot {a a' : Assigner α} {stored : PartitionSnapshot α}
    (h : a.snapshot = .ok (stored, a')) :
    stored.lastEpoch = a.lastEpoch ∧ a'.lastEpoch = a.lastEpoch := by
  rw [Assigner.snapshot_eq] at h
  obtain ⟨⟨points, b⟩, hread, h⟩ := map_eq_ok.1 h
  cases h
  obtain ⟨-, -, -, hlast⟩ := Assigner.readPoints_same hread
  exact ⟨hlast, hlast⟩

namespace Iteration

/-- What is stored of operators tells which boundary they have passed. -/
theorem snapshotAll_passed {last : Option Int} : ∀ {assigners assigners' : List (Assigner α)}
    {stored : List (Int × PartitionSnapshot α)},
    snapshotAll assigners = (.ok stored, assigners') → Passed last assigners →
    (∀ entry ∈ stored, entry.2.lastEpoch = last) ∧ Passed last assigners'
  | [], _, _, h, _ => by
    cases h
    exact ⟨nofun, nofun⟩
  | a :: rest, assigners', stored, h, hpassed => by
    rw [snapshotAll] at h
    cases ha : a.snapshot with
    | error e =>
      rw [ha] at h
      cases h
    | ok out =>
      obtain ⟨z, a'⟩ := out
      obtain ⟨hz, ha'⟩ := Assigner.lastEpoch_snapshot ha
      have hlast : a.lastEpoch = last := hpassed a List.mem_cons_self
      rw [ha] at h
      cases hrest : snapshotAll rest with
      | mk others rest' =>
        simp only [hrest, Prod.mk.injEq] at h
        obtain ⟨hothers, rfl⟩ := h
        obtain ⟨others', hothers', rfl⟩ := map_eq_ok.1 hothers
        obtain ⟨hstored, hkept⟩ := snapshotAll_passed (hothers' ▸ hrest)
          fun b hb => hpassed b (List.mem_cons_of_mem a hb)
        constructor
        · intro entry hentry
          rcases List.mem_cons.1 hentry with rfl | hentry
          · exact hz.trans hlast
          · exact hstored entry hentry
        · intro b hb
          rcases List.mem_cons.1 hb with rfl | hb
          · exact ha'.trans hlast
          · exact hkept b hb

variable {last : Option Int} {s : Session α}

theorem broadcast_passed (centroids : Tensor α) (h : Passed last s.assigners) :
    (broadcast centroids).Ends s (fun _ s' => Passed last s'.assigners) (fun _ _ => True) := by
  simp only [broadcast, Step.ends_bind, Step.ends_get, Step.ends_set]
  exact Step.ends_ofOutcome_of (fun _ hreceive => h.receive hreceive) fun _ _ => True.intro

theorem takeSnapshot_passed (plan : Plan α) (epoch : Int) (centroids : Tensor α)
    (h : Passed last s.assigners) :
    (takeSnapshot plan epoch centroids).Ends s
      (fun z s' => (∀ entry ∈ z.partitions, entry.2.lastEpoch = last) ∧ Passed last s'.assigners)
      (fun _ _ => True) := by
  simp only [takeSnapshot, Step.ends_bind, Step.ends_get, Step.ends_set, Step.ends_pure]
  refine Step.ends_ofOutcome_of (fun stored hstored => ?_) fun _ _ => True.intro
  exact snapshotAll_passed (Prod.ext hstored rfl) h

end Iteration

/-! ## Snapshots from which nothing is missing -/

/-- The snapshot holds a whole run as it is before a round: its settings, the inertia of all rounds
    so far, and every partition by its number, with all its points, the centroids waiting, and the
    boundary of the round before behind it. -/
structure Snapshot.Entire (z : Snapshot α) (settings : Settings) (points : List (Tensor α)) :
    Prop where
  settings_eq : z.settings = settings
  epoch_nonneg : 0 ≤ z.epoch
  inertia_length : (z.inertia.length : Int) = z.epoch
  ids_eq : z.partitions.map (·.1) = (List.range points.length).map fun (i : Nat) => (i : Int)
  partitions : ∀ (i : Nat) p, points[i]? = some p → ∃ q,
    z.partitions[i]? = some ((i : Int),
      ⟨i, some q, [z.centroids], roundBefore z.epoch, .known .accumulating⟩) ∧
    p.SamePoints q ∧ q.rank = 2

theorem Snapshot.Records.entire {z : Snapshot α} {task : Task α} {mark : Mark α}
    (h : z.Records task mark) (hepoch : 0 ≤ mark.epoch)
    (hinertia : (mark.inertia.length : Int) = mark.epoch)
    (hlast : ∀ entry ∈ z.partitions, entry.2.lastEpoch = roundBefore mark.epoch) :
    z.Entire task.settings task.points where
  settings_eq := h.settings_eq
  epoch_nonneg := by rw [h.epoch_eq]; exact hepoch
  inertia_length := by rw [h.inertia_eq, h.epoch_eq]; exact hinertia
  ids_eq := by rw [h.keys, h.length]
  partitions i p hp := by
    obtain ⟨q, last, hget, same, hq, -⟩ := h.partitions i p hp
    have hentry : last = roundBefore mark.epoch := hlast _ (List.mem_of_getElem? hget)
    exact ⟨q, by rw [hget, h.centroids_eq, h.epoch_eq, hentry], same, hq⟩

theorem Snapshot.Entire.records {z : Snapshot α} {task : Task α}
    (h : z.Entire task.settings task.points) :
    z.Records task ⟨z.epoch, z.centroids, z.inertia⟩ where
  epoch_eq := rfl
  centroids_eq := rfl
  settings_eq := h.settings_eq
  inertia_eq := rfl
  length := by simpa using congrArg List.length h.ids_eq
  partitions i p hp := by
    obtain ⟨q, hget, same, hq⟩ := h.partitions i p hp
    exact ⟨q, _, hget, same, hq, fun l hl => roundBefore_lt hl⟩

/-- The operators that take up what is stored of each partition have passed the same boundary. -/
theorem Snapshot.Entire.passed {z : Snapshot α} {settings : Settings} {points : List (Tensor α)}
    {assigners : List (Assigner α)} (h : z.Entire settings points)
    (hall : List.Forall₂ Assigner.Restored z.ordered assigners) :
    Passed (roundBefore z.epoch) assigners := by
  have hlength : z.partitions.length = points.length := by
    simpa using congrArg List.length h.ids_eq
  have hstored : ∀ entry ∈ z.ordered, entry.2.lastEpoch = roundBefore z.epoch := by
    intro entry hentry
    obtain ⟨i, hi⟩ := List.mem_iff_getElem?.1 (Snapshot.mem_ordered.1 hentry)
    have hlt : i < points.length := hlength ▸ (List.getElem?_eq_some_iff.1 hi).1
    obtain ⟨q, hget, -, -⟩ := h.partitions i _ (List.getElem?_eq_getElem hlt)
    rw [hi, Option.some.injEq] at hget
    rw [hget]
  intro a ha
  obtain ⟨i, hi⟩ := List.mem_iff_getElem.1 ha
  obtain ⟨hlen, hget⟩ := List.forall₂_iff_get.1 hall
  obtain ⟨hlt, hia⟩ := hi
  obtain ⟨q, -, -, hrestored⟩ := hget i (hlen ▸ hlt) hlt
  rw [List.get_eq_getElem, hia] at hrestored
  rw [hrestored]
  exact hstored _ (List.getElem_mem _)

/-! ## What lies at the place -/

theorem Slot.held_of_save {slot slot' : Slot α} {z : Snapshot α}
    (h : slot.save z = (.ok (), slot')) : slot'.held = .snapshot z := by
  unfold Slot.save at h
  dsimp only at h
  split at h
  · cases h
  · cases h
  · cases h
  · cases h
    rfl

/-- A save that fails leaves what was there. -/
theorem Slot.held_of_save_error {slot slot' : Slot α} {z : Snapshot α} {e : Failure}
    (h : slot.save z = (.error e, slot')) : slot'.held = slot.held := by
  unfold Slot.save at h
  dsimp only at h
  split at h
  · cases h
    rfl
  · cases h
    rfl
  · cases h
    rfl
  · cases h

/-- The place holds the snapshot of the last of the saves that were completed, and the snapshot is
    entire. -/
structure Safe (task : Task α) (width : Nat) (n : Int) (done : List Int) (held : Held α)
    (z : Snapshot α) : Prop where
  held_eq : held = .snapshot z
  last_eq : done.getLast? = some z.epoch
  entire : z.Entire task.settings task.points
  shaped : task.Shaped width z.centroids
  due : n ∣ z.epoch

section Safe

variable {task : Task α} {width : Nat} {n : Int} {done : List Int} {z : Snapshot α}
  {slot : Slot α} (h : Safe task width n done slot.held z) (hpoints : task.points ≠ [])

include h hpoints

/-- What is safe can be loaded. -/
theorem Safe.load : slot.load = .ok z := by
  have hvalid : z.validate = .ok () :=
    h.entire.records.validate h.shaped h.entire.epoch_nonneg hpoints
  unfold Slot.load
  rw [show slot.retrieve = .ok (some z) by simp [Slot.retrieve, h.held_eq]]
  show (z.validate >>= fun _ => pure z) = _
  rw [hvalid]
  rfl

/-- Nothing else is taken up from the place. -/
theorem Safe.eq_of_takenUp {plan : Plan α} {y : Snapshot α}
    (htaken : Iteration.TakenUp plan none slot y) : y = z := by
  have hasked : (if plan.period.isNone then .error (.configuration .noSnapshot) else slot.load)
      = .ok y := htaken.1
  split at hasked
  · cases hasked
  · rw [h.load hpoints] at hasked
    exact (Except.ok.inj hasked).symm

/-- It is taken up by every controller for settings that equal themselves. -/
theorem Safe.takeUp {plan : Plan α} {s : Session α} (hslot : s.slot.held = slot.held)
    (hplan : plan.settings = task.settings) (hperiod : plan.period.isSome)
    (hsame : task.settings.same task.settings) :
    ∃ s', Iteration.takeUp plan none s = .ok z s' := by
  have hload : s.slot.load = .ok z := Safe.load (hslot ▸ h) hpoints
  have htaken : Iteration.TakenUp plan none s.slot z := by
    refine ⟨?_, by rw [h.entire.settings_eq, hplan]; exact hsame⟩
    have hkeeps : ¬ plan.period.isNone = true := by
      rw [Option.isNone_iff_eq_none]
      exact Option.isSome_iff_ne_none.1 hperiod
    rw [Iteration.askedFor, if_neg hkeeps, hload]
  have hunique : ∀ {y}, Iteration.TakenUp plan none s.slot y → y = z := fun hy =>
    Safe.eq_of_takenUp (hslot ▸ h) hpoints hy
  cases hresult : Iteration.takeUp plan none s with
  | ok y s' =>
    obtain ⟨hy, -⟩ := (Iteration.takeUp_accepts plan none s).of_ok hresult
    exact ⟨s', by rw [hunique hy]⟩
  | error e s' =>
    rcases (Iteration.takeUp_accepts plan none s).of_error hresult with
      ⟨hnone, -⟩ | ⟨y, done, entry, rest, hy, hsplit, hmatrix, -⟩
    · exact absurd htaken (hnone z)
    · -- points of every partition are stored as a matrix
      rw [hunique hy] at hsplit
      have hentry : entry ∈ z.partitions := by
        rw [← Snapshot.mem_ordered, hsplit]
        exact List.mem_append_right _ List.mem_cons_self
      obtain ⟨i, hi⟩ := List.mem_iff_getElem?.1 hentry
      obtain ⟨_, q, _, _, rfl, _, hq, _⟩ := h.entire.records.getElem? hi
      exact absurd ⟨q, rfl, hq⟩ hmatrix

end Safe

/-! ## Stages that save nothing -/

namespace Iteration

variable (plan : Plan α) (s : Session α)

theorem restoreAll_sameSaves (entries : List (Int × PartitionSnapshot α)) :
    (entries.forM restorePartition).Ends s
      (fun _ s' => s.SameSaves s' ∧ s'.collector = s.collector) (fun _ s' => s.SameSaves s') := by
  refine Step.ends_forM (I := fun _ s' => s.SameSaves s' ∧ s'.collector = s.collector)
    ⟨.refl s, rfl⟩ fun done entry rest s' _ h => ?_
  simp only [restorePartition, Step.ends_bind, Step.ends_note, Step.ends_modify]
  refine Step.ends_ofOutcome_of (fun _ _ => ⟨h.1.trans ⟨rfl, ?_⟩, h.2⟩) fun _ _ => h.1
  exact Session.saved_noted rfl

theorem takeUp_sameSaves (given : Option (Snapshot α)) :
    (takeUp plan given).Ends s (fun _ s' => s.SameSaves s' ∧ s'.collector = s.collector)
      (fun _ s' => s.SameSaves s') := by
  rw [takeUp, Step.ends_bind]
  refine (snapshotFor_ends plan given s).mono (fun z s' hs' => ?_) fun _ s' hs' => ?_
  · obtain ⟨-, rfl⟩ := hs'
    split
    · exact .refl s'
    · simp only [Step.ends_bind, Step.ends_modify, Step.ends_note, Step.ends_pure]
      refine (restoreAll_sameSaves { s' with assigners := [] } z.ordered).mono (fun _ s'' h => ?_)
        fun _ _ h => ⟨h.slot_eq, h.saved_eq⟩
      refine ⟨⟨h.1.slot_eq, ?_⟩, h.2⟩
      exact (Session.saved_noted (s := { s'' with inertia := z.inertia }) rfl).trans h.1.saved_eq
  · obtain ⟨-, rfl⟩ := hs'
    exact .refl s'

theorem enter_sameSaves :
    (enter plan).Ends s (fun _ s' => s.SameSaves s' ∧ s'.collector = s.collector)
      (fun _ s' => s.SameSaves s') := by
  simp only [enter, Step.ends_bind, Step.ends_get, Step.ends_set]
  refine Step.ends_ofOutcome_of (fun barrier _ => ?_) fun _ _ => .refl s
  refine (openPool_ends plan _).mono (fun _ s' hs' => ?_) fun _ s' hs' => ?_
  · obtain ⟨pool, rfl⟩ := hs'
    exact ⟨⟨rfl, rfl⟩, rfl⟩
  · obtain ⟨rfl, -⟩ := hs'
    exact ⟨rfl, rfl⟩

end Iteration

/-! ## Runs under way -/

/-- The run stands before a round with all that a snapshot of it needs. -/
structure Punctual (task : Task α) (here : Iteration.Standing α) (s : Session α) : Prop where
  poised : Poised task (here.mark s) here.handedOut s
  passed : Passed (roundBefore here.epoch) s.assigners
  inertia_length : (s.inertia.length : Int) = here.epoch

namespace Session

variable {began s t : Session α}

/-- The numbers of the rounds before which checkpoints have been saved since. -/
def savedSince (began s : Session α) : List Int := s.saved.drop began.saved.length

theorem savedSince_self : s.savedSince s = [] := List.drop_length

theorem savedSince_congr (h : t.saved = s.saved) : began.savedSince t = began.savedSince s := by
  rw [savedSince, savedSince, h]

/-- A save is noted with the number of its round from one on. -/
theorem saved_concat {epoch : Int} {location : String}
    (h : t.journal = s.journal ++ [.saved (epoch + 1) location]) :
    t.saved = s.saved ++ [epoch] := by
  rw [Session.saved, h, List.filterMap_append]
  simp [Event.saved?, Session.saved]

theorem saved_length_le {epoch : Int} (h : t.saved = s.saved ++ [epoch]) :
    s.saved.length ≤ t.saved.length := by
  rw [h, List.length_append]
  exact Nat.le_add_right _ _

theorem savedSince_concat {epoch : Int} (h : t.saved = s.saved ++ [epoch])
    (hbegan : began.saved.length ≤ s.saved.length) :
    began.savedSince t = began.savedSince s ++ [epoch] := by
  rw [savedSince, savedSince, h, List.drop_append_of_le_length hbegan]

end Session

/-- The run stands before a round, and unless it is the first one of all, a checkpoint is safe: that
    of the last round whose number is a multiple of `n`, among the rounds whose centroids have been
    handed out. A run without coordinates that was resumed has lost its points, and comes to no
    other round. -/
structure Sheltered (task : Task α) (width : Nat) (n : Int) (earlier : List Int)
    (began : Session α) (here : Iteration.Standing α) (s : Session α) : Prop where
  epoch_nonneg : 0 ≤ here.epoch
  shaped : task.Shaped width here.centroids
  collector : s.collector.k = task.settings.k
  stands : Punctual task here s ∨ width = 0 ∧ here.handedOut = true
  since : began.saved.length ≤ s.saved.length
  safe : (here.handedOut = false ∧ here.epoch = 0 ∧ earlier ++ began.savedSince s = []) ∨
    ∃ z, Safe task width n (earlier ++ began.savedSince s) s.slot.held z ∧
      z.epoch = n * ((if here.handedOut then here.epoch else here.epoch - 1) / n)

/-- Nothing has been saved, or what was saved last is safe. -/
def Secure (task : Task α) (width : Nat) (n : Int) (earlier : List Int) (began s : Session α) :
    Prop :=
  earlier ++ began.savedSince s = [] ∨
    ∃ z, Safe task width n (earlier ++ began.savedSince s) s.slot.held z

section Secure

variable {task : Task α} {width : Nat} {n : Int} {earlier : List Int} {began s t : Session α}

theorem Secure.congr (h : Secure task width n earlier began s) (hheld : t.slot.held = s.slot.held)
    (hsaved : t.saved = s.saved) : Secure task width n earlier began t := by
  unfold Secure
  rw [hheld, Session.savedSince_congr hsaved]
  exact h

theorem Sheltered.secure {here : Iteration.Standing α}
    (h : Sheltered task width n earlier began here s) : Secure task width n earlier began s := by
  rcases h.safe with ⟨-, -, hnothing⟩ | ⟨z, hz, -⟩
  · exact .inl hnothing
  · exact .inr ⟨z, hz⟩

end Secure

/-- The standing with its centroids handed out. -/
def Iteration.Standing.prepared (here : Standing α) : Standing α := { here with handedOut := true }

/-- Between two multiples of `n` the last one stays the same. -/
theorem sub_one_ediv_of_not_dvd {n e : Int} (hn : 0 < n) (h : ¬ n ∣ e) :
    (e - 1) / n = e / n := by
  have hmod : e % n ≠ 0 := fun h0 => h (Int.dvd_of_emod_eq_zero h0)
  have hpos := Int.emod_nonneg e (Int.ne_of_gt hn)
  have hlt := Int.emod_lt_of_pos e hn
  have hsplit := Int.emod_add_mul_ediv e n
  exact ((Int.ediv_emod_unique hn).2
    (show e % n - 1 + n * (e / n) = e - 1 ∧ 0 ≤ e % n - 1 ∧ e % n - 1 < n by omega)).1

namespace Iteration

variable {task : Task α} {width : Nat} {n : Int} {earlier : List Int} {plan : Plan α}
  {here : Standing α} {began s : Session α}

/-- A checkpoint that is saved is safe; one that is not due leaves the last one; and one that cannot
    be saved does so, too. -/
theorem checkpoint_shelters (hplan : plan.settings = task.settings)
    (hperiod : plan.period = some (.int n)) (hn : 0 < n)
    (h : Sheltered task width n earlier began here s) (hhanded : here.handedOut = false)
    {assigners : List (Assigner α)}
    (hposted : Punctual task here.prepared { s with assigners }) :
    (checkpoint plan here.epoch here.centroids).Ends { s with assigners }
      (fun _ s' => Sheltered task width n earlier began here.prepared s')
      (fun _ s' => s'.slot.held = s.slot.held ∧ s'.saved = s.saved) := by
  have hshape : task.Shaped width (here.mark s).centroids := h.shaped
  have htake := (takeSnapshot_ends hplan hshape hposted.poised).and
    (takeSnapshot_passed plan here.epoch here.centroids hposted.passed)
  refine (checkpoint_cases plan here.epoch here.centroids _).mono (fun _ s' hs' => ?_)
    fun e s' hs' => ?_
  · cases hs' with
    | skipped unwanted =>
      have hdvd : ¬ n ∣ here.epoch := fun hd =>
        unwanted ⟨.int n, hperiod, decide_eq_true (Int.emod_eq_zero_of_dvd hd)⟩
      refine ⟨h.epoch_nonneg, h.shaped, h.collector, .inl hposted, h.since, .inr ?_⟩
      rcases h.safe with ⟨-, hzero, -⟩ | ⟨z, hz, hepoch⟩
      · exact absurd (hzero ▸ Int.dvd_zero n) hdvd
      · refine ⟨z, hz, ?_⟩
        rw [hepoch, hhanded]
        exact congrArg (n * ·) (sub_one_ediv_of_not_dvd hn hdvd)
    | @saved z t slot wanted taken save =>
      obtain ⟨⟨hrecords, hpoised, assigners', rfl⟩, hstored, hpassed⟩ := htake.of_ok taken
      have hentire := hrecords.entire h.epoch_nonneg hposted.inertia_length hstored
      have hepoch : z.epoch = here.epoch := hrecords.epoch_eq
      obtain ⟨period, hsome, hdivides⟩ := wanted
      cases hperiod.symm.trans hsome
      have hdvd : n ∣ here.epoch := Int.dvd_of_emod_eq_zero (of_decide_eq_true hdivides)
      refine ⟨h.epoch_nonneg, h.shaped, h.collector, .inl ⟨?_, hpassed, hposted.inertia_length⟩,
        Nat.le_trans h.since (Session.saved_length_le (Session.saved_concat rfl)),
        .inr ⟨z, ⟨Slot.held_of_save save, ?_, hentire, ?_, ?_⟩, ?_⟩⟩
      · exact ⟨hpoised.lineup, hpoised.barrier, hpoised.collector, hpoised.inertia⟩
      · rw [Session.savedSince_concat (Session.saved_concat rfl) h.since, ← List.append_assoc]
        exact List.getLast?_concat
      · rw [hrecords.centroids_eq]
        exact h.shaped
      · rw [hepoch]
        exact hdvd
      · rw [hepoch]
        exact (Int.mul_ediv_cancel' hdvd).symm
  · rcases hs' with htaken | ⟨z, t, slot, htaken, hfails, rfl⟩
    · exact (htake.of_error htaken).1.elim
    · obtain ⟨⟨-, -, assigners', rfl⟩, -⟩ := htake.of_ok htaken
      exact ⟨Slot.held_of_save_error hfails, rfl⟩

/-- Preparing a round keeps the run sheltered; if the save fails, what was there is still there. -/
theorem prepare_shelters (hplan : plan.settings = task.settings)
    (hperiod : plan.period = some (.int n)) (hn : 0 < n)
    (h : Sheltered task width n earlier began here s) :
    (prepare plan here).Ends s
      (fun _ s' => Sheltered task width n earlier began here.prepared s')
      (fun _ s' => s'.slot.held = s.slot.held ∧ s'.saved = s.saved) := by
  unfold prepare
  cases hhanded : here.handedOut with
  | true =>
    have hprepared : here.prepared = here := by rw [Standing.prepared, ← hhanded]
    rw [hprepared]
    exact h
  | false =>
    -- a run that has lost its points has its centroids handed out
    have hposted : Punctual task here s := by
      rcases h.stands with hposted | ⟨-, htrue⟩
      · exact hposted
      · rw [hhanded] at htrue
        cases htrue
    have hpoised : Poised task (here.mark s) false s := hhanded ▸ hposted.poised
    simp only [Bool.not_false, if_true, Step.ends_bind]
    refine ((broadcast_ends hpoised).and (broadcast_passed here.centroids hposted.passed)).mono
      (fun _ s' hs' => ?_) fun _ _ h' => h'.1.elim
    obtain ⟨⟨hpoised', assigners, rfl⟩, hpassed⟩ := hs'
    exact checkpoint_shelters hplan hperiod hn h hhanded
      ⟨hpoised', hpassed, hposted.inertia_length⟩

variable [Scalar α]

/-- Without a coordinate a round comes to its end in no way: no change can be told. -/
theorem work_of_no_width (hcentroids : here.centroids.shape = [task.settings.k, 0])
    (hk : s.collector.k = task.settings.k) (first : Int) :
    (work plan first here).Ends s (fun _ _ => False) (fun _ s' => s.SameSaves s') := by
  simp only [work, Step.ends_bind]
  refine Step.ends_timed fun clock =>
    (firePartitions_sameElse plan here.epoch here.centroids _).mono (fun outputs s₁ hs₁ => ?_)
      fun _ s₁ hs₁ _ => ⟨hs₁.slot_eq, hs₁.sameSaves.saved_eq⟩
  intro stretch clock₁
  have hsaves : s.SameSaves s₁ := ⟨hs₁.slot_eq, hs₁.sameSaves.saved_eq⟩
  have hk₁ : s₁.collector.k = task.settings.k := by
    rw [hs₁.collector_eq]
    exact hk
  refine Step.ends_timed fun clock₂ =>
    (update_ends (s := { s₁ with clock := clock₂ }) hk₁ outputs here.centroids).mono
      (fun next s₂ hs₂ => ?_) fun _ s₂ hs₂ => ?_
  · intro stretch' clock₃
    obtain ⟨hnext, hsame₂, -⟩ := hs₂
    have hsaves₂ : s₁.SameSaves s₂ := ⟨hsame₂.sameSaves.slot_eq, hsame₂.saved_eq⟩
    have hshift := Quality.shift_of_no_width hcentroids
      ((shape_nextCentroids hnext).trans hcentroids)
    rw [Step.ends_modify, hshift]
    exact (hsaves.trans hsaves₂).trans ⟨rfl, rfl⟩
  · intro clock₃
    obtain ⟨rfl, -⟩ := hs₂
    exact hsaves.trans ⟨rfl, rfl⟩

/-- A round with a prepared standing keeps the run sheltered, and saves nothing if it fails. -/
theorem work_shelters (hplan : plan.settings = task.settings) (first : Int)
    (h : Sheltered task width n earlier began here.prepared s) :
    (work plan first here).Ends s
      (fun out s' => Sheltered task width n earlier began out.1 s' ∧ 0 < out.1.epoch)
      (fun _ s' => s.SameSaves s') := by
  have hshape : task.Shaped width (here.mark s).centroids := h.shaped
  have hepoch : 0 ≤ here.epoch := h.epoch_nonneg
  rcases h.stands with hposted | ⟨rfl, -⟩
  · refine (work_brings hplan hshape first rfl rfl hposted.poised).mono (fun out s' hs' => ?_)
      fun _ _ h' => h'.1
    obtain ⟨outputs, t, -, hturn, -, hafter, hpoised, hsame, hpassed, -⟩ := hs'
    have hmark := hafter.mark_eq hpoised.inertia
    have hnext : out.1.epoch = here.epoch + 1 := hafter.epoch_eq
    refine ⟨⟨by omega, ?_, hpoised.collector, .inl ⟨?_, ?_, ?_⟩,
      by rw [hsame.saved_eq]; exact h.since, .inr ?_⟩, by omega⟩
    · rw [hafter.centroids_eq]
      exact hshape.turnFrom hturn
    · rw [hmark, hafter.handedOut_eq]
      exact hpoised
    · rw [hnext, roundBefore_succ hepoch]
      exact hpassed
    · have hinertia : s'.inertia = s.inertia ++ [t.inertia] := hpoised.inertia
      have hlength : (s.inertia.length : Int) = here.epoch := hposted.inertia_length
      rw [hinertia, List.length_append, List.length_singleton, hnext]
      omega
    · rcases h.safe with ⟨hfalse, -⟩ | ⟨z, hz, hlast⟩
      · cases hfalse
      · refine ⟨z, by rw [hsame.slot_eq, Session.savedSince_congr hsame.saved_eq]; exact hz, ?_⟩
        rw [hlast, hafter.handedOut_eq, hnext]
        simp [Standing.prepared]
  · refine (work_of_no_width h.shaped.centroids h.collector first).mono (fun _ _ h' => h'.elim)
      fun _ _ h' => h'

/-- A round keeps the run sheltered, whether it is the last or not; and if it fails, what was saved
    last is still safe. -/
theorem round_shelters (hplan : plan.settings = task.settings)
    (hperiod : plan.period = some (.int n)) (hn : 0 < n) (first : Int)
    (h : Sheltered task width n earlier began here s) :
    (round plan first here).Ends s
      (fun out s' => Sheltered task width n earlier began out.1 s' ∧ 0 < out.1.epoch)
      (fun _ s' => Secure task width n earlier began s') := by
  rw [round_eq_bind, Step.ends_bind]
  refine (prepare_shelters hplan hperiod hn h).mono (fun _ s₁ h₁ => ?_)
    fun _ s₁ h₁ => h.secure.congr h₁.1 h₁.2
  refine (work_shelters hplan first h₁).mono (fun _ _ h' => h') fun _ s₂ h₂ => ?_
  exact h₁.secure.congr (congrArg Slot.held h₂.slot_eq) h₂.saved_eq

end Iteration

/-! ## Runs that are broken off and resumed -/

/-- A controller for the settings that keeps a checkpoint every `n` rounds, used before or not. -/
structure Keeper (settings : Settings) (n : Int) (plan : Plan α) (s : Session α) : Prop where
  settings_eq : plan.settings = settings
  period_eq : plan.period = some (.int n)
  collector : s.collector.k = settings.k

/-- The run is broken off in the round of this number, and not while a checkpoint is saved. -/
def Request.BreaksOffIn [Scalar α] (plan : Plan α) (r : Request α) (s : Session α) (epoch : Int)
    (e : Failure) (s' : Session α) : Prop :=
  ∃ first here s₁ s₂ s₃, r.ComesTo plan s first here s₁ ∧ here.epoch = epoch ∧
    Iteration.prepare plan here s₁ = .ok () s₂ ∧
    Iteration.work plan first here s₂ = .error e s₃ ∧ s' = s₃.release

/-- What the next controller is asked for, what it finds at the place of the checkpoint, and before
    which rounds checkpoints have been saved there: a run over the inputs at first, whatever lies at
    the place; and behind every run that was broken off when there had been a save, its
    resumption. -/
inductive Relay [Scalar α] (settings : Settings) (points : List (Tensor α)) (initial : Tensor α)
    (n : Int) : Request α → Held α → List Int → Prop
  | first (held : Held α) : Relay settings points initial n (.run points initial) held []
  | again {r : Request α} {held : Held α} {done : List Int} {plan : Plan α} {s s' : Session α}
      {e : Failure} (before : Relay settings points initial n r held done)
      (keeper : Keeper settings n plan s) (finds : s.slot.held = held)
      (crash : r.step plan s = .error e s') (saved : done ++ s.savedSince s' ≠ []) :
      Relay settings points initial n (.resume none) s'.slot.held (done ++ s.savedSince s')

section Relay

variable [Scalar α] {task : Task α} {width : Nat} {n : Int} {done : List Int} {plan : Plan α}
  {r : Request α} {initial : Tensor α} {s s' : Session α} {first : Int}
  {here : Iteration.Standing α}

/-- What is asked for fits what lies at the place. -/
def Fits (task : Task α) (width : Nat) (n : Int) (initial : Tensor α) (r : Request α)
    (done : List Int) (held : Held α) : Prop :=
  (r = .run task.points initial ∧ done = []) ∨
    (r = .resume none ∧ ∃ z, Safe task width n done held z)

open Iteration

omit [Scalar α] in
/-- Mustered operators that have passed the boundary before the round have all a snapshot needs. -/
theorem enter_punctual {mark : Mark α} {handedOut : Bool} (hpoints : task.points ≠ [])
    (hmustered : Mustered task mark handedOut s)
    (hpassed : Passed (roundBefore mark.epoch) s.assigners)
    (hlength : (mark.inertia.length : Int) = mark.epoch) :
    (enter plan).Ends s
      (fun _ s' => Punctual task (.atStart mark.centroids mark.epoch handedOut) s' ∧
        s'.collector.k = task.settings.k ∧ s.SameSaves s')
      (fun _ s' => s.SameSaves s') := by
  refine (enter_poises hpoints hmustered).mono (fun _ s' hs' => ?_) fun _ _ h => h.1
  obtain ⟨hpoised, hsame, hassigners, -⟩ := hs'
  have hinertia : s'.inertia = mark.inertia := hpoised.inertia
  refine ⟨⟨?_, hassigners ▸ hpassed, hinertia ▸ hlength⟩, hpoised.collector, hsame⟩
  show Poised task ⟨mark.epoch, mark.centroids, s'.inertia⟩ handedOut s'
  rw [hinertia]
  exact hpoised

omit [Scalar α] in
/-- The checkpoint that is taken up is the safe one. Its operators have passed the boundary before
    its round, and they are mustered if there are coordinates. -/
theorem takeUp_finds {z : Snapshot α} (hpoints : task.points ≠ [])
    (hkeeper : Keeper task.settings n plan s) (hz : Safe task width n done s.slot.held z) :
    (takeUp plan none).Ends s
      (fun y s' => y = z ∧ Passed (roundBefore z.epoch) s'.assigners ∧
        (width = 0 ∨ Mustered task ⟨z.epoch, z.centroids, z.inertia⟩ true s') ∧
        s'.collector = s.collector ∧ s.SameSaves s')
      (fun _ s' => s.SameSaves s') := by
  have hmusters : (takeUp plan none).Ends s
      (fun _ s' => width = 0 ∨ Mustered task ⟨z.epoch, z.centroids, z.inertia⟩ true s')
      (fun _ _ => True) := by
    by_cases hwidth : width = 0
    · exact Step.ends_of_forall (fun _ _ => .inl hwidth) fun _ _ => True.intro
    · exact (takeUp_musters hkeeper.settings_eq hz.entire.records hz.shaped
        (Nat.pos_of_ne_zero hwidth) hz.entire.epoch_nonneg hpoints hkeeper.collector
        (.inr ⟨rfl, hz.held_eq⟩)).mono (fun _ _ h => .inr h.2.1) fun _ _ _ => True.intro
  refine (((takeUp_sameSaves plan s none).and (takeUp_accepts plan none s)).and hmusters).mono
    (fun y s' hs' => ?_) fun _ _ h => h.1.1
  obtain ⟨⟨⟨hsame, hcollector⟩, htaken, hrestored, -⟩, hmustered⟩ := hs'
  obtain rfl := hz.eq_of_takenUp hpoints htaken
  exact ⟨rfl, hz.entire.passed hrestored, hmustered, hcollector, hsame⟩

omit [Scalar α] in
/-- Before its first round a run is sheltered. -/
theorem opening_shelters
    (haccepted : checkInputs task.settings task.points initial = .ok ())
    (hshape : initial.shape = [task.settings.k, width])
    (hkeeper : Keeper task.settings n plan s)
    (hfits : Fits task width n initial r done s.slot.held) :
    (r.opening plan).Ends s (fun here s' => Sheltered task width n done s here s')
      (fun _ s' => s.SameSaves s') := by
  obtain ⟨hpoints, hshaped⟩ := shaped_start haccepted hshape
  have hsince {s' : Session α} (h : s.SameSaves s') : s.saved.length ≤ s'.saved.length :=
    Nat.le_of_eq (congrArg List.length h.saved_eq.symm)
  rcases hfits with ⟨rfl, rfl⟩ | ⟨rfl, z, hz⟩
  · simp only [Request.opening, Step.ends_bind, Step.ends_pure]
    refine ((start_musters hkeeper.settings_eq haccepted hkeeper.collector).and
      (start_loads plan s task.points initial)).mono (fun _ s₁ hs₁ => ?_) fun _ _ h => h.1.elim
    obtain ⟨⟨hmustered, hsame₁, -⟩, -, hloaded⟩ := hs₁
    -- operators that were just made have passed no boundary
    have hpassed : Passed (roundBefore 0) s₁.assigners := by
      intro a ha
      rw [hloaded] at ha
      obtain ⟨entry, -, rfl⟩ := List.mem_map.1 ha
      rfl
    refine (enter_punctual hpoints hmustered hpassed rfl).mono (fun _ s₂ hs₂ => ?_)
      fun _ _ h => hsame₁.trans h
    obtain ⟨hpunctual, hcollector, hsame₂⟩ := hs₂
    have hsame := hsame₁.trans hsame₂
    refine ⟨Int.le_refl 0, hshaped, hcollector, .inl hpunctual, hsince hsame, .inl ⟨rfl, rfl, ?_⟩⟩
    rw [Session.savedSince_congr hsame.saved_eq, Session.savedSince_self]
    rfl
  · simp only [Request.opening, Step.ends_bind, Step.ends_pure]
    refine (takeUp_finds hpoints hkeeper hz).mono (fun y s₁ hs₁ => ?_) fun _ _ h => h
    obtain ⟨rfl, hpassed, hmustered, hcollector₁, hsame₁⟩ := hs₁
    -- the place is as it was, and nothing new is noted
    have hsafe {s₂ : Session α} (h : s.SameSaves s₂) :
        ∃ z, Safe task width n (done ++ s.savedSince s₂) s₂.slot.held z ∧
          z.epoch = n * (y.epoch / n) := by
      refine ⟨y, ?_, (Int.mul_ediv_cancel' hz.due).symm⟩
      rw [Session.savedSince_congr h.saved_eq, h.slot_eq, Session.savedSince_self,
        List.append_nil]
      exact hz
    rcases hmustered with hwidth | hmustered
    · refine (enter_sameSaves plan s₁).mono (fun _ s₂ hs₂ => ?_) fun _ _ h => hsame₁.trans h
      obtain ⟨hsame₂, hcollector₂⟩ := hs₂
      have hsame := hsame₁.trans hsame₂
      refine ⟨hz.entire.epoch_nonneg, hz.shaped, ?_, .inr ⟨hwidth, rfl⟩, hsince hsame,
        .inr (hsafe hsame)⟩
      rw [hcollector₂, hcollector₁]
      exact hkeeper.collector
    · refine (enter_punctual hpoints hmustered hpassed hz.entire.inertia_length).mono
        (fun _ s₂ hs₂ => ?_) fun _ _ h => hsame₁.trans h
      obtain ⟨hpunctual, hcollector₂, hsame₂⟩ := hs₂
      have hsame := hsame₁.trans hsame₂
      exact ⟨hz.entire.epoch_nonneg, hz.shaped, hcollector₂, .inl hpunctual, hsince hsame,
        .inr (hsafe hsame)⟩

section Asked

variable (haccepted : checkInputs task.settings task.points initial = .ok ())
  (hshape : initial.shape = [task.settings.k, width]) (hn : 0 < n)
  (hkeeper : Keeper task.settings n plan s) (hfits : Fits task width n initial r done s.slot.held)

include haccepted hshape hn hkeeper hfits

/-- Wherever it comes to, a run is sheltered. -/
theorem Request.ComesTo.sheltered (h : r.ComesTo plan s first here s') :
    Sheltered task width n done s here s' := by
  obtain ⟨opened, s₁, hopening, -, hpasses⟩ := h
  refine hpasses.invariant (I := fun here t => Sheltered task width n done s here t)
    ((opening_shelters haccepted hshape hkeeper hfits).of_ok hopening) fun h hround => ?_
  exact ((round_shelters hkeeper.settings_eq hkeeper.period_eq hn _ h).of_ok hround).1

/-- A run that fails leaves what was saved last in safety. -/
theorem Request.Fails.secure {e : Failure} (h : r.Fails plan s e s') :
    Secure task width n done s s' := by
  have hstart : Secure task width n done s s := by
    unfold Secure
    rw [Session.savedSince_self, List.append_nil]
    exact hfits.imp (fun h => h.2) fun h => h.2
  cases h with
  | opening opening left =>
    have hsame := (opening_shelters haccepted hshape hkeeper hfits).of_error opening
    rcases left with rfl | rfl
    · exact hstart.congr (congrArg Slot.held hsame.slot_eq) hsame.saved_eq
    · exact hstart.congr (congrArg Slot.held hsame.slot_eq) hsame.saved_eq
  | round comes round =>
    have hsheltered := comes.sheltered haccepted hshape hn hkeeper hfits
    exact ((round_shelters hkeeper.settings_eq hkeeper.period_eq hn _ hsheltered).of_error
      round).congr rfl rfl
  | endless comes =>
    exact (comes.sheltered haccepted hshape hn hkeeper hfits).secure.congr rfl rfl
  | finish comes round finish =>
    have hsheltered := comes.sheltered haccepted hshape hn hkeeper hfits
    obtain ⟨hlast, -⟩ :=
      (round_shelters hkeeper.settings_eq hkeeper.period_eq hn _ hsheltered).of_ok round
    obtain ⟨hsame, -⟩ := (finish_ends plan _ _).of_error finish
    exact hlast.secure.congr (congrArg Slot.held hsame.slot_eq) hsame.saved_eq

/-- In a round, that is the checkpoint of the last multiple of `n`. -/
theorem Request.BreaksOffIn.safe {epoch : Int} {e : Failure}
    (h : r.BreaksOffIn plan s epoch e s') :
    ∃ z, Safe task width n (done ++ s.savedSince s') s'.slot.held z ∧
      z.epoch = n * (epoch / n) := by
  obtain ⟨first, here, s₁, s₂, s₃, hcomes, rfl, hprepare, hwork, rfl⟩ := h
  have hsheltered := hcomes.sheltered haccepted hshape hn hkeeper hfits
  have hprepared := (prepare_shelters hkeeper.settings_eq hkeeper.period_eq hn hsheltered).of_ok
    hprepare
  have hsame := (work_shelters hkeeper.settings_eq first hprepared).of_error hwork
  rcases hprepared.safe with ⟨hfalse, -⟩ | ⟨z, hz, hlast⟩
  · cases hfalse
  · refine ⟨z, ?_, hlast⟩
    show Safe task width n (done ++ s.savedSince s₃) s₃.slot.held z
    rw [Session.savedSince_congr hsame.saved_eq, hsame.slot_eq]
    exact hz

end Asked

/-- However often a run is broken off and resumed, what is asked for next fits what lies at the
    place. -/
theorem Relay.fits (haccepted : checkInputs task.settings task.points initial = .ok ())
    (hshape : initial.shape = [task.settings.k, width]) (hn : 0 < n) {held : Held α}
    (h : Relay task.settings task.points initial n r held done) :
    Fits task width n initial r done held := by
  induction h with
  | first held => exact .inl ⟨rfl, rfl⟩
  | again before keeper finds crash saved ih =>
    have hfails := (Request.step_comes _ _ _).of_error crash
    refine .inr ⟨rfl, ?_⟩
    rcases hfails.secure haccepted hshape hn keeper (finds ▸ ih) with hnothing | hsafe
    · exact absurd hnothing saved
    · exact hsafe

end Relay

/-- However often a run is broken off and resumed, and wherever that happens: as soon as one
    checkpoint has been saved, the place holds that of the last save that was completed, and it can
    be loaded. Nothing of the run is missing from it; if the run was broken off in a round and not
    while a checkpoint was saved, it is the checkpoint of the last round before whose number is a
    multiple of the period; and every controller for the settings takes it up, unless their
    tolerance is the undefined number. A run that returns leaves nothing at the place. -/
theorem checkpoint_survives_crashes [Scalar α] {settings : Settings} {points : List (Tensor α)}
    {initial : Tensor α} {n : Int} {r : Request α} {held : Held α} {done : List Int}
    {plan : Plan α} {s : Session α}
    (haccepted : Iteration.checkInputs settings points initial = .ok ()) (hn : 1 ≤ n)
    (hrelay : Relay settings points initial n r held done)
    (hkeeper : Keeper settings n plan s) (hfinds : s.slot.held = held) :
    (∀ e s', r.step plan s = .error e s' → done ++ s.savedSince s' ≠ [] → ∃ z,
      s'.slot.load = .ok z ∧ (done ++ s.savedSince s').getLast? = some z.epoch ∧
      z.Entire settings points ∧
      (∀ epoch, r.BreaksOffIn plan s epoch e s' → z.epoch = n * (epoch / n)) ∧
      ((∀ x, settings.tolerance = some (.float x) → x.isNaN = false) →
        settings.featuresColumn.equal settings.featuresColumn →
        ∀ plan' s₁, plan'.settings = settings → plan'.period.isSome → s₁.slot.held = s'.slot.held →
          ∃ s₂, Iteration.takeUp plan' none s₁ = .ok z s₂)) ∧
    ∀ result s', r.step plan s = .ok result s' → s'.slot.held = .nothing := by
  obtain ⟨task, rfl, rfl⟩ : ∃ task : Task α, task.settings = settings ∧ task.points = points :=
    ⟨⟨settings, .euclidean "EuclideanDistanceMeasure", points⟩, rfl, rfl⟩
  obtain ⟨hpoints, width, hshape, -⟩ := Iteration.shaped_of_checkInputs task.measure haccepted
  have hpos : 0 < n := by omega
  have hfits : Fits task width n initial r done s.slot.held :=
    hfinds ▸ hrelay.fits haccepted hshape hpos
  constructor
  · intro e s' hcrash hsaved
    have hfails := (Request.step_comes plan r s).of_error hcrash
    rcases hfails.secure haccepted hshape hpos hkeeper hfits with hnothing | ⟨z, hz⟩
    · exact absurd hnothing hsaved
    · refine ⟨z, hz.load hpoints, hz.last_eq, hz.entire, fun epoch hbreaks => ?_,
        fun htolerance hcolumn plan' s₁ hplan hperiod hslot => ?_⟩
      · obtain ⟨z', hz', hlast⟩ := hbreaks.safe haccepted hshape hpos hkeeper hfits
        rw [hz.held_eq.symm.trans hz'.held_eq |> Held.snapshot.inj]
        exact hlast
      · exact hz.takeUp hpoints hslot hplan hperiod (Settings.same_self htolerance hcolumn)
  · intro result s' hreturns
    obtain ⟨_, _, _, last, s₂, -, -, hfinish⟩ := (Request.step_comes plan r s).of_ok hreturns
    exact ((Iteration.finish_ends plan _ last).of_ok hfinish).2 (by rw [hkeeper.period_eq]; rfl)

/-! ## A run that is broken off in its second round -/

section SecondRound

variable [Scalar α] {plan : Plan α} {r : Request α} {here next : Iteration.Standing α} {e : Failure}
  {s t : Session α}

/-- The run that is asked for up to its second round, and that round as far as it goes. -/
def Request.secondRound (plan : Plan α) (r : Request α) : Step α
    (Iteration.Standing α × (Iteration.Standing α × Bool) ×
      Outcome (Iteration.Standing α × Bool)) := do
  let here ← r.opening plan
  let out ← Iteration.round plan here.epoch here
  Iteration.prepare plan out.1
  let outcome ← Step.attempt (Iteration.work plan here.epoch out.1)
  return (here, out, outcome)

theorem Request.breaksOffIn_of_secondRound
    (h : r.secondRound plan s = .ok (here, (next, false), .error e) t)
    (hfuel : 1 < (s.criterion.horizon here.epoch.toNat).getD Iteration.patience) :
    r.step plan s = .error e t.release ∧ r.BreaksOffIn plan s next.epoch e t.release := by
  -- the steps one by one
  obtain ⟨opened, s₁, hopening, h⟩ := Step.bind_eq_ok.1 h
  obtain ⟨out, s₂, hround, h⟩ := Step.bind_eq_ok.1 h
  obtain ⟨_, s₃, hprepare, h⟩ := Step.bind_eq_ok.1 h
  obtain ⟨outcome, s₄, hattempt, h⟩ := Step.bind_eq_ok.1 h
  cases h
  have hwork : Iteration.work plan here.epoch next s₃ = .error e t := by
    unfold Step.attempt at hattempt
    split at hattempt
    · cases hattempt
    · rename_i hfails
      cases hattempt
      exact hfails
  have hcomes : r.ComesTo plan s here.epoch next s₂ :=
    ⟨here, s₁, hopening, rfl, .round .here hround⟩
  have hepoch : next.epoch = here.epoch + 1 :=
    ((Iteration.round_countsOne here.epoch here s₁).of_ok hround).epoch_eq
  have hfails : (r.step plan).Ends s (fun _ _ => False) (fun e' s' => e' = e ∧ s' = t.release) := by
    refine hcomes.step_ends (by omega) ?_
    rw [Iteration.round_eq_bind, Step.ends_bind, Step.Ends, hprepare]
    show Step.Ends _ _ _ _
    rw [Step.Ends, hwork]
    exact ⟨rfl, rfl⟩
  obtain ⟨_, _, hstep, rfl, rfl⟩ := hfails.exists_error fun _ _ h => h
  exact ⟨hstep, here.epoch, next, s₂, s₃, t, hcomes, rfl, hprepare, hwork, rfl⟩

end SecondRound

namespace Sample

/-- A plan for the sample that saves a checkpoint in every second round. -/
def sparing (m : Measure Rat) : Plan Rat := { (attempt m).plan with period := some (.int 2) }

/-- The measure is lost in the second round. -/
def lost : Measure Rat := task.measure.failingAt 3 "worker lost"

/-- A controller that nobody has asked for anything. -/
def unasked : Session Rat := (attempt lost).session place

theorem unasked_secondRound :
    ((Request.run task.points initial).secondRound (sparing lost)).Ends unasked
      (fun x s => x.1.epoch = 0 ∧ x.2.1.1.epoch = 1 ∧ x.2.1.2 = false ∧ x.2.2.isOk = false ∧
        s.saved = [0])
      (fun _ _ => False) := by decide +kernel

/-- The run fails in its second round, and one checkpoint has been saved then. -/
theorem lost_in_second_round : ∃ e s,
    (Request.run task.points initial).step (sparing lost) unasked = .error e s ∧
    s.saved = [0] ∧
    (Request.run task.points initial).BreaksOffIn (sparing lost) unasked 1 e s := by
  obtain ⟨⟨here, ⟨next, stop⟩, outcome⟩, s, hresult, hhere, hnext, hgoesOn, hfails, hsaved⟩ :=
    unasked_secondRound.exists_ok fun _ _ h => h
  dsimp only at hhere hnext hgoesOn hfails
  subst hgoesOn
  cases outcome with
  | ok out => cases hfails
  | error e =>
    have hfuel : 1 < (unasked.criterion.horizon here.epoch.toNat).getD Iteration.patience := by
      rw [hhere]
      decide
    obtain ⟨hstep, hbreaks⟩ := Request.breaksOffIn_of_secondRound hresult hfuel
    exact ⟨e, s.release, hstep, hsaved, hnext ▸ hbreaks⟩

end Sample

/-- The checkpoint of the first round is there when the second one fails, and it is taken up. -/
theorem checkpoint_survives_crashes_sample : ∃ e s z,
    (Request.run Sample.task.points Sample.initial).step (Sample.sparing Sample.lost)
        Sample.unasked = .error e s ∧
      s.saved = [0] ∧ s.slot.load = .ok z ∧ z.epoch = 0 ∧
      z.Entire Sample.settings Sample.task.points ∧
      ∃ t, Iteration.takeUp (Sample.sparing Sample.task.measure) none s = .ok z t := by
  obtain ⟨e, s, hstep, hsaved, hbreaks⟩ := Sample.lost_in_second_round
  have hkeeper : Keeper Sample.settings 2 (Sample.sparing Sample.lost) Sample.unasked :=
    ⟨rfl, rfl, rfl⟩
  obtain ⟨z, hload, -, hentire, hepoch, htaken⟩ := (checkpoint_survives_crashes Sample.accepted
    (by decide) (.first _) hkeeper rfl).1 e s hstep (by rw [Session.savedSince, hsaved]; decide)
  refine ⟨e, s, z, hstep, hsaved, hload, (hepoch 1 hbreaks).trans (by decide), hentire, ?_⟩
  exact htaken (fun x hx => nomatch hx) rfl _ s rfl rfl rfl

end ClusterRounds
