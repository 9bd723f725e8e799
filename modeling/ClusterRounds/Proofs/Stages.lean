/-
  ClusterRounds.Proofs.Stages

  What surrounds the rounds of a run. A run starts with its inputs, or takes up the
  operators of a snapshot; it enters the rounds with a barrier and perhaps a pool; and
  behind the last round it finishes. Runs and resumed runs are made of these stages
  (`run_eq_bind`, `resume_eq_bind`, `ends_iterate`), and each stage has one lemma that
  says how it ends.
-/

import ClusterRounds.Iteration.Run
import ClusterRounds.Proofs.Rounds

namespace ClusterRounds

variable {α : Type}

/-! ## The stages -/

namespace Iteration

/-- Where a run stands before the first of its rounds. -/
def Standing.atStart (centroids : Tensor α) (first : Int) (handedOut : Bool) : Standing α where
  epoch := first
  centroids
  handedOut
  converged := false
  labels := []
  timings := .zero

/-- The inputs are checked, and every partition gets an operator with its points. -/
def start (plan : Plan α) (partitions : List (Tensor α)) (initial : Tensor α) : Step α Unit := do
  Step.ofOutcome (checkInputs plan.settings partitions initial)
  let assigners ← Step.ofOutcome <| partitions.zipIdx.mapM fun (points, i) =>
    (Assigner.fresh (i : Int)).addPoints points
  modify fun s => { s with assigners, inertia := [] }
  Step.note (.started partitions.length plan.settings.k plan.settings.maxRounds)

/-- The snapshot is checked, and its partitions get operators again. -/
def takeUp (plan : Plan α) (given : Option (Snapshot α)) : Step α (Snapshot α) := do
  let snapshot ← snapshotFor plan given
  if !snapshot.settings.same plan.settings then
    throw (.configuration (.otherSettings snapshot.settings plan.settings))
  modify fun s => { s with assigners := [] }
  snapshot.ordered.forM restorePartition
  modify fun s => { s with inertia := snapshot.inertia }
  Step.note (.resumed (snapshot.epoch + 1) snapshot.partitions.length)
  return snapshot

/-- The operators get a barrier, and the workers a pool. -/
def enter (plan : Plan α) : Step α Unit := do
  let s ← get
  let barrier ← Step.ofOutcome (Barrier.ofParties s.assigners.length)
  set { s with barrier := some barrier }
  openPool plan

/-- The checkpoint is removed, and the result is put together. -/
def finish (plan : Plan α) (last : Standing α) : Step α (RunResult α) := do
  clearCheckpoint plan
  Step.note (.finished last.epoch)
  return ⟨last.centroids, last.epoch, last.converged, last.labels, (← get).inertia, last.timings⟩

section Composition

variable [Scalar α] (plan : Plan α)

theorem run_eq_bind (partitions : List (Tensor α)) (initial : Tensor α) :
    run plan partitions initial = (do
      start plan partitions initial
      iterate plan initial 0 false) := by
  simp only [run, start, bind_assoc]

theorem resume_eq_bind (given : Option (Snapshot α)) :
    resume plan given = (do
      let z ← takeUp plan given
      iterate plan z.centroids z.epoch true) := by
  simp only [resume, takeUp, bind_assoc]
  refine bind_congr fun z => ?_
  split
  · rfl
  · simp only [bind_assoc, pure_bind]

variable {plan} {centroids : Tensor α} {first : Int} {handedOut : Bool} {s : Session α}
  {Q : RunResult α → Session α → Prop} {E : Failure → Session α → Prop}

/-- The operators are released behind the rounds, and also if a round fails or there is no pool. -/
theorem ends_iterate
    (h : (enter plan).Ends s
      (fun _ s₁ => (rounds plan first ((s.criterion.horizon first.toNat).getD patience)
          (.atStart centroids first handedOut)).Ends s₁
        (fun last s₂ => (finish plan last).Ends s₂.release Q E) fun e s₂ => E e s₂.release)
      fun e s₁ => E e s₁ ∧ E e s₁.release) :
    (iterate plan centroids first handedOut).Ends s Q E := by
  simp only [enter, Step.ends_bind, Step.ends_get] at h
  simp only [iterate, Step.ends_bind, Step.ends_get]
  cases hb : (Barrier.ofParties s.assigners.length : Outcome (Barrier (PartitionOutput α))) with
  | error e =>
    rw [hb] at h
    exact h.1
  | ok barrier =>
    rw [hb] at h
    simp only [Step.ends_ofOutcome_ok, Step.ends_set, Step.ends_thenRelease, Step.ends_bind] at h ⊢
    refine h.mono (fun _ s₁ h₁ => ?_) fun _ _ he => he.2
    refine h₁.mono (fun last s₂ h₂ => ?_) fun _ _ he => he
    simpa only [finish, Step.ends_bind, Step.ends_get] using h₂

end Composition

end Iteration

/-! ## Sessions before the rounds -/

/-- A session that can begin to carry out the task: nothing has happened in it, or nothing that
    matters. -/
structure Equipped (task : Task α) (s : Session α) : Prop where
  collector : s.collector.k = task.settings.k
  slot : s.slot.Usable

/-- The operators stand before the first of the rounds; there is no barrier for them yet. -/
structure Gathered (task : Task α) (mark : Mark α) (handedOut : Bool) (s : Session α) : Prop where
  lineup : Lineup s.assigners task.points (if handedOut then [mark.centroids] else []) mark.epoch
  inertia : s.inertia = mark.inertia
  equipped : Equipped task s

/-- The operators stand before the first of the rounds, whatever may stand in the way of the
    checkpoint. -/
structure Mustered (task : Task α) (mark : Mark α) (handedOut : Bool) (s : Session α) : Prop where
  lineup : Lineup s.assigners task.points (if handedOut then [mark.centroids] else []) mark.epoch
  inertia : s.inertia = mark.inertia
  collector : s.collector.k = task.settings.k

theorem Mustered.gathered {task : Task α} {mark : Mark α} {handedOut : Bool} {s : Session α}
    (h : Mustered task mark handedOut s) (hslot : s.slot.Usable) : Gathered task mark handedOut s :=
  ⟨h.lineup, h.inertia, h.collector, hslot⟩

/-- A barrier has at least one party, and is closed at first. -/
theorem Barrier.ofParties_eq_ok {β : Type} {n : Nat} {b : Barrier β} :
    (ofParties n : Outcome (Barrier β)) = .ok b ↔ 0 < n ∧ b = ⟨n, none, []⟩ := by
  unfold ofParties
  split
  · rename_i hn
    simp only [reduceCtorEq, false_iff]
    omega
  · rename_i hn
    have hpos : 0 < n := by omega
    simp only [Except.ok.injEq, Int.toNat_natCast, hpos, true_and]
    exact eq_comm

namespace Iteration

variable {plan : Plan α} {task : Task α} {s : Session α} {width : Nat}

/-! ## Start -/

/-- Inputs that are accepted fit each other, and there is a partition. -/
theorem shaped_of_checkInputs {settings : Settings} {partitions : List (Tensor α)}
    {initial : Tensor α} (m : Measure α) (h : checkInputs settings partitions initial = .ok ()) :
    partitions ≠ [] ∧ ∃ width, initial.shape = [settings.k, width] ∧
      Task.Shaped ⟨settings, m, partitions⟩ width initial := by
  unfold checkInputs at h
  split at h
  · cases h
  · rename_i hne
    refine ⟨fun hnil => hne (by simp [hnil]), ?_⟩
    split at h
    · rename_i k width hshape
      split at h
      · cases h
      · rename_i hk
        have hk : k = settings.k := by simpa using hk
        subst hk
        refine ⟨width, hshape, hshape, fun p hp => ?_⟩
        obtain ⟨i, hi⟩ := List.mem_iff_getElem?.1 hp
        have hmem : (p, i) ∈ partitions.zipIdx := by
          rw [List.mem_zipIdx_iff_getElem?]
          exact hi
        have hcheck := forM_eq_ok.1 h (p, i) hmem
        unfold checkPartition at hcheck
        split at hcheck
        · rename_i n w hs
          refine ⟨n, w, hs, ?_⟩
          split at hcheck
          · cases hcheck
          · rename_i hnw
            by_cases hn : n = 0
            · exact .inl hn
            · exact .inr (by simpa [hn] using hnw)
        · cases hcheck
    · cases h

/-- Inputs that fit each other are accepted. -/
theorem checkInputs_of_shaped {initial : Tensor α} (hpoints : task.points ≠ [])
    (h : task.Shaped width initial) : checkInputs task.settings task.points initial = .ok () := by
  have hchecked : task.points.zipIdx.forM (checkPartition width) = .ok () := by
    rw [forM_eq_ok]
    rintro ⟨p, i⟩ hp
    rw [List.mem_zipIdx_iff_getElem?] at hp
    obtain ⟨n, w, hs, hn | hw⟩ := h.points p (List.mem_of_getElem? hp)
    · simp [checkPartition, hs, hn]
    · simp [checkPartition, hs, hw]
  unfold checkInputs
  rw [if_neg (by simpa using hpoints), h.centroids]
  simp [hchecked]

/-- Every partition gets an operator with its points. -/
theorem exists_lineup {points : List (Tensor α)} (hrank : ∀ p ∈ points, p.rank = 2) :
    ∃ assigners, points.zipIdx.mapM (fun (p, i) => (Assigner.fresh (i : Int)).addPoints p)
        = .ok assigners ∧ Lineup assigners points [] 0 := by
  have hall : ∀ e ∈ points.zipIdx, ∃ a : Assigner α,
      (Assigner.fresh (e.2 : Int)).addPoints e.1 = .ok a ∧ a.Stands e.2 e.1 [] 0 := by
    rintro ⟨p, i⟩ he
    rw [List.mem_zipIdx_iff_getElem?] at he
    exact Assigner.addPoints_fresh i 0 (hrank p (List.mem_of_getElem? he))
  -- to choose one operator for each partition
  have : Nonempty (Assigner α) := ⟨.fresh 0⟩
  choose! next hnext using hall
  have hok := mapM_eq_ok_map fun e he => (hnext e he).1
  refine ⟨_, hok, by simp, fun i p hp => ?_⟩
  have hmem : (p, i) ∈ points.zipIdx := by
    rw [List.mem_zipIdx_iff_getElem?]
    exact hp
  have hget : points.zipIdx[i]? = some (p, i) := by simp [hp]
  exact ⟨next (p, i), by rw [List.getElem?_map, hget]; rfl, (hnext _ hmem).2⟩

/-- A run over accepted inputs starts, and saves nothing yet. -/
theorem start_musters (hplan : plan.settings = task.settings) {initial : Tensor α}
    (haccepted : checkInputs task.settings task.points initial = .ok ())
    (hk : s.collector.k = task.settings.k) :
    (start plan task.points initial).Ends s
      (fun _ s' => Mustered task (.start initial) false s' ∧ s.SameSaves s' ∧
        s'.criterion = s.criterion)
      (fun _ _ => False) := by
  obtain ⟨-, width, -, hshape⟩ := shaped_of_checkInputs task.measure haccepted
  obtain ⟨assigners, hassigners, hlineup⟩ := exists_lineup fun p hp => hshape.rank_points hp
  simp only [start, Step.ends_bind, hplan, haccepted, Step.ends_ofOutcome_ok, hassigners,
    Step.ends_modify, Step.ends_note]
  exact ⟨⟨hlineup, rfl, hk⟩, ⟨rfl, Session.saved_noted rfl⟩, trivial⟩

theorem start_ends (hplan : plan.settings = task.settings) {initial : Tensor α}
    (haccepted : checkInputs task.settings task.points initial = .ok ())
    (hequipped : Equipped task s) :
    (start plan task.points initial).Ends s
      (fun _ s' => Gathered task (.start initial) false s' ∧ s'.slot = s.slot ∧
        s'.criterion = s.criterion)
      (fun _ _ => False) := by
  refine (start_musters hplan haccepted hequipped.collector).mono (fun _ s' hs' => ?_) fun _ _ h => h
  obtain ⟨hmustered, hsame, hcriterion⟩ := hs'
  exact ⟨hmustered.gathered (hsame.slot_eq ▸ hequipped.slot), hsame.slot_eq, hcriterion⟩

end Iteration

/-! ## Snapshots taken up -/

section Records

variable {task : Task α} {mark : Mark α} {z : Snapshot α} {width : Nat} (h : z.Records task mark)

include h

theorem Snapshot.Records.getElem? {i : Nat} {entry : Int × PartitionSnapshot α}
    (he : z.partitions[i]? = some entry) : ∃ p q last, task.points[i]? = some p ∧
      entry = ((i : Int), ⟨i, some q, [mark.centroids], last, .known .accumulating⟩) ∧
      p.SamePoints q ∧ q.rank = 2 ∧ ∀ l, last = some l → l < mark.epoch := by
  have hi : i < task.points.length := h.length ▸ (List.getElem?_eq_some_iff.1 he).1
  obtain ⟨q, last, hget, hrest⟩ := h.partitions i task.points[i] (List.getElem?_eq_getElem hi)
  rw [he, Option.some.injEq] at hget
  exact ⟨task.points[i], q, last, List.getElem?_eq_getElem hi, hget, hrest⟩

/-- The partitions are stored by number. -/
theorem Snapshot.Records.keys :
    z.partitions.map (·.1) = (List.range z.partitions.length).map fun (i : Nat) => (i : Int) := by
  apply List.ext_getElem (by simp)
  intro i hi _
  rw [List.length_map] at hi
  obtain ⟨_, _, _, _, hentry, _⟩ := h.getElem? (List.getElem?_eq_getElem hi)
  simp [hentry]

theorem Snapshot.Records.sorted : z.partitions.Pairwise fun a b => a.1 ≤ b.1 := by
  have hkeys : (z.partitions.map (·.1)).Pairwise (· ≤ ·) := by
    rw [h.keys]
    exact List.Pairwise.map _ (fun _ _ hlt => Int.ofNat_le.2 (Nat.le_of_lt hlt))
      List.pairwise_lt_range
  exact (List.pairwise_map.1 hkeys)

theorem Snapshot.Records.ordered_eq : z.ordered = z.partitions :=
  List.mergeSort_of_pairwise (h.sorted.imp fun hle => by simpa using hle)

/-- What is recorded can be taken up. -/
theorem Snapshot.Records.validate (hshape : task.Shaped width mark.centroids)
    (hepoch : 0 ≤ mark.epoch) (hpoints : task.points ≠ []) : z.validate = .ok () := by
  -- the ids are sorted already
  have hids : z.ids = (List.range z.partitions.length).map fun (i : Nat) => (i : Int) := by
    rw [← h.keys]
    refine List.mergeSort_of_pairwise (List.pairwise_map.2 (h.sorted.imp fun hle => ?_))
    simpa using hle
  have hrank : z.centroids.rank = 2 := by rw [h.centroids_eq]; exact hshape.rank
  have hrows : z.centroids.rowTotal = z.settings.k := by
    rw [h.centroids_eq, h.settings_eq]
    exact Tensor.rowTotal_of_shape hshape.centroids
  have hne : z.partitions ≠ [] := by
    intro hnil
    have := h.length
    rw [hnil] at this
    exact hpoints (List.eq_nil_of_length_eq_zero this.symm)
  have hneg : ¬ z.epoch < 0 := by rw [h.epoch_eq]; omega
  have hpartitions : z.partitions.forM (Snapshot.validatePartition z.epoch) = .ok () := by
    rw [forM_eq_ok]
    intro entry hentry
    obtain ⟨i, hi⟩ := List.mem_iff_getElem?.1 hentry
    obtain ⟨_, _, last, _, rfl, _, _, hlast⟩ := h.getElem? hi
    unfold Snapshot.validatePartition
    cases last with
    | none => simp [pure, Except.pure]
    | some l =>
      have : ¬ z.epoch ≤ l := by rw [h.epoch_eq]; exact Int.not_le.2 (hlast l rfl)
      simp [this, pure, Except.pure]
  simp [Snapshot.validate, hneg, hrank, hrows, hids, hne, hpartitions]

/-- It is loaded from where it lies. -/
theorem Snapshot.Records.load (hshape : task.Shaped width mark.centroids) (hepoch : 0 ≤ mark.epoch)
    (hpoints : task.points ≠ []) {slot : Slot α} (hheld : slot.held = .snapshot z) :
    slot.load = .ok z := by
  have hretrieve : slot.retrieve = .ok (some z) := by rw [Slot.retrieve, hheld]
  rw [Slot.load, hretrieve]
  show (z.validate >>= fun _ => pure z) = _
  rw [h.validate hshape hepoch hpoints]
  rfl

end Records

namespace Iteration

variable {plan : Plan α} {task : Task α} {mark : Mark α} {z : Snapshot α} {width : Nat}
  {s : Session α}

/-- New operators stand where those stood of which the record was made. -/
theorem restoreAll_ends (h : z.Records task mark) (hshape : task.Shaped width mark.centroids)
    (hwidth : 0 < width) (hs : s.assigners = []) :
    (z.ordered.forM restorePartition).Ends s
      (fun _ s' => Lineup s'.assigners task.points [mark.centroids] mark.epoch ∧
        s.SameSaves s' ∧ s'.collector = s.collector ∧ s'.criterion = s.criterion)
      (fun _ _ => False) := by
  rw [h.ordered_eq]
  refine (Step.ends_forM (I := fun done s' => s'.assigners.length = done.length ∧
      (∀ (i : Nat) p, i < done.length → task.points[i]? = some p →
        ∃ a, s'.assigners[i]? = some a ∧ a.Stands i p [mark.centroids] mark.epoch) ∧
      s.SameSaves s' ∧ s'.collector = s.collector ∧ s'.criterion = s.criterion) ?_ ?_).mono
    (fun _ s' hs' => ?_) fun _ _ h' => h'
  · exact ⟨by simp [hs], fun i p hi => absurd hi (Nat.not_lt_zero i), .refl s, rfl, rfl⟩
  · rintro done entry rest s' hall ⟨hlen, hstands, hsame⟩
    have hget : z.partitions[done.length]? = some entry := by rw [hall]; simp
    obtain ⟨p, q, last, hp, rfl, same, hq, hlast⟩ := h.getElem? hget
    obtain ⟨n, w, hps, hnw⟩ := hshape.points p (List.mem_of_getElem? hp)
    -- with a coordinate, points without entries are no points
    have hempty : q.entries = [] → p.rowCount = .ok 0 := by
      intro hnil
      rcases same with rfl | ⟨_, h0⟩
      · rw [Tensor.rowCount_of_shape hps]
        have hsize := Tensor.length_entries_of_shape hps
        rw [hnil] at hsize
        rcases hnw with rfl | rfl
        · rfl
        · rcases Nat.mul_eq_zero.1 hsize.symm with rfl | hw
          · rfl
          · omega
      · exact h0
    obtain ⟨a, hrestore, ha⟩ : ∃ a, (Assigner.fresh (done.length : Int)).restore
        ⟨done.length, some q, [mark.centroids], last, .known .accumulating⟩ = (.ok (), a) ∧
        a.Stands done.length p [mark.centroids] mark.epoch :=
      Assigner.restore_fresh rfl rfl hq same hempty rfl rfl hlast
    simp only [restorePartition, hrestore, Step.ends_bind, Step.ends_ofOutcome_ok, Step.ends_note,
      Step.ends_modify]
    refine ⟨by simp [hlen], fun i p' hi hp' => ?_,
      hsame.1.trans ⟨rfl, Session.saved_noted rfl⟩, hsame.2⟩
    rw [List.length_append, List.length_singleton] at hi
    rcases Nat.lt_succ_iff_lt_or_eq.1 hi with hlt | rfl
    · obtain ⟨b, hb, hstand⟩ := hstands i p' hlt hp'
      exact ⟨b, by rw [List.getElem?_append_left (hlen ▸ hlt)]; exact hb, hstand⟩
    · rw [hp, Option.some.injEq] at hp'
      subst hp'
      refine ⟨a, ?_, ha⟩
      rw [List.getElem?_append_right (Nat.le_of_eq hlen), hlen]
      simp
  · obtain ⟨hlen, hstands, hsame⟩ := hs'
    rw [h.length] at hlen hstands
    exact ⟨⟨hlen, fun i p hp => hstands i p (List.getElem?_eq_some_iff.1 hp).1 hp⟩, hsame⟩

/-- A recorded mark is taken up, whether the record is given or lies at the place of the checkpoint,
    unless there is no place or the settings are not equal. -/
theorem takeUp_musters (hplan : plan.settings = task.settings) (h : z.Records task mark)
    (hshape : task.Shaped width mark.centroids) (hwidth : 0 < width) (hepoch : 0 ≤ mark.epoch)
    (hpoints : task.points ≠ []) (hk : s.collector.k = task.settings.k)
    {given : Option (Snapshot α)}
    (hgiven : given = some z ∨ given = none ∧ s.slot.held = .snapshot z) :
    (takeUp plan given).Ends s
      (fun z' s' => z' = z ∧ Mustered task mark true s' ∧ s.SameSaves s' ∧
        s'.criterion = s.criterion)
      (fun _ s' => s' = s ∧
        ((given = none → plan.period.isSome) → ¬ task.settings.same task.settings)) := by
  have hvalid := h.validate hshape hepoch hpoints
  -- what is left to do once there is a snapshot
  have hrest : (snapshotFor plan given).Ends s (fun z' s' => z' = z ∧ s' = s)
      (fun _ s' => s' = s ∧ given = none ∧ plan.period.isNone) := by
    rcases hgiven with rfl | ⟨rfl, hheld⟩
    · simp only [snapshotFor, hvalid, Step.ends_bind, Step.ends_ofOutcome_ok, Step.ends_pure,
        and_self]
    · have hload := h.load hshape hepoch hpoints hheld
      simp only [snapshotFor]
      split
      · rename_i hperiod
        rw [Step.ends_bind, Step.ends_throw]
        exact ⟨rfl, trivial, hperiod⟩
      · simp only [Step.ends_bind, Step.ends_get, hload, Step.ends_ofOutcome_ok, and_self]
  rw [takeUp, Step.ends_bind]
  refine hrest.mono (fun z' s' hz => ?_) fun _ s' hs' => ?_
  · obtain ⟨rfl, rfl⟩ := hz
    rw [h.settings_eq, hplan]
    split
    · rename_i hother
      rw [Step.ends_bind, Step.ends_throw]
      exact ⟨rfl, fun _ hsame => by simp [hsame] at hother⟩
    · simp only [Step.ends_bind, Step.ends_modify, Step.ends_note, Step.ends_pure]
      refine (restoreAll_ends h hshape hwidth rfl).mono (fun _ s' hs' => ?_) fun _ _ h' => h'.elim
      obtain ⟨hlineup, hsame, hcollector, hcriterion⟩ := hs'
      refine ⟨trivial, ⟨hlineup, h.inertia_eq, (congrArg Collector.k hcollector).trans hk⟩, ?_,
        hcriterion⟩
      exact ⟨hsame.slot_eq, (Session.saved_noted rfl).trans hsame.saved_eq⟩
  · obtain ⟨rfl, rfl, hperiod⟩ := hs'
    refine ⟨rfl, fun hsome => ?_⟩
    rw [Option.isNone_iff_eq_none] at hperiod
    rw [hperiod] at hsome
    exact absurd (hsome rfl) Bool.false_ne_true

theorem takeUp_ends (hplan : plan.settings = task.settings) (h : z.Records task mark)
    (hshape : task.Shaped width mark.centroids) (hwidth : 0 < width) (hepoch : 0 ≤ mark.epoch)
    (hpoints : task.points ≠ []) (hequipped : Equipped task s) {given : Option (Snapshot α)}
    (hgiven : given = some z ∨ given = none ∧ s.slot.held = .snapshot z) :
    (takeUp plan given).Ends s
      (fun z' s' => z' = z ∧ Gathered task mark true s' ∧ s'.slot = s.slot ∧
        s'.criterion = s.criterion)
      (fun _ s' => s'.slot = s.slot ∧
        ((given = none → plan.period.isSome) → ¬ task.settings.same task.settings)) := by
  refine (takeUp_musters hplan h hshape hwidth hepoch hpoints hequipped.collector hgiven).mono
    (fun z' s' hs' => ?_) fun _ s' hs' => ⟨congrArg Session.slot hs'.1, hs'.2⟩
  obtain ⟨heq, hmustered, hsame, hcriterion⟩ := hs'
  exact ⟨heq, hmustered.gathered (hsame.slot_eq ▸ hequipped.slot), hsame.slot_eq, hcriterion⟩

/-! ## Entry -/

theorem openPool_ends (plan : Plan α) (s : Session α) :
    (openPool plan).Ends s (fun _ s' => ∃ pool, s' = { s with pool })
      (fun _ s' => s' = s ∧ ∀ n, plan.execution.effectiveWorkers ≠ .ok n) := by
  simp only [openPool, Step.ends_bind, Step.ends_get]
  apply Step.ends_ofOutcome_of
  · intro effective _
    split
    · exact ⟨_, rfl⟩
    · exact ⟨s.pool, rfl⟩
  · intro e he
    refine ⟨rfl, fun n hn => ?_⟩
    rw [hn] at he
    cases he

/-- Mustered operators are poised for a round, unless the number of workers cannot be told. -/
theorem enter_poises {handedOut : Bool} (hpoints : task.points ≠ [])
    (h : Mustered task mark handedOut s) :
    (enter plan).Ends s
      (fun _ s' => Poised task mark handedOut s' ∧ s.SameSaves s' ∧ s'.assigners = s.assigners ∧
        s'.criterion = s.criterion)
      (fun _ s' => s.SameSaves s' ∧ ∀ n, plan.execution.effectiveWorkers ≠ .ok n) := by
  -- there is a partition, so there can be a barrier
  have hparties : (Barrier.ofParties s.assigners.length : Outcome (Barrier (PartitionOutput α)))
      = .ok ⟨s.assigners.length, none, []⟩ := by
    refine Barrier.ofParties_eq_ok.2 ⟨?_, rfl⟩
    rw [h.lineup.length]
    exact List.length_pos_iff.2 hpoints
  simp only [enter, Step.ends_bind, Step.ends_get, hparties, Step.ends_ofOutcome_ok, Step.ends_set]
  refine (openPool_ends plan _).mono (fun _ s' hs' => ?_) fun _ s' hs' => ?_
  · obtain ⟨pool, rfl⟩ := hs'
    exact ⟨⟨h.lineup, ⟨[], rfl⟩, h.collector, h.inertia⟩, ⟨rfl, rfl⟩, rfl, rfl⟩
  · obtain ⟨rfl, hworkers⟩ := hs'
    exact ⟨⟨rfl, rfl⟩, hworkers⟩

theorem enter_ends [Scalar α] {handedOut : Bool} (hpoints : task.points ≠ [])
    (h : Gathered task mark handedOut s) :
    (enter plan).Ends s
      (fun _ s' => Ready task mark handedOut s' ∧ s'.slot = s.slot ∧ s'.criterion = s.criterion)
      (fun _ s' => s'.slot = s.slot ∧ ∀ n, plan.execution.effectiveWorkers ≠ .ok n) := by
  have hmustered : Mustered task mark handedOut s := ⟨h.lineup, h.inertia, h.equipped.collector⟩
  refine (enter_poises hpoints hmustered).mono (fun _ s' hs' => ?_)
    fun _ s' hs' => ⟨hs'.1.slot_eq, hs'.2⟩
  obtain ⟨hpoised, hsame, -, hcriterion⟩ := hs'
  exact ⟨hpoised.ready (hsame.slot_eq ▸ h.equipped.slot), hsame.slot_eq, hcriterion⟩

end Iteration

/-! ## Finish -/

/-- What lies at a place is removed, or it stays. -/
theorem Slot.delete_eq (slot : Slot α) :
    slot.delete = (.ok (), { slot with held := .nothing }) ∨
      ∃ e, slot.delete = (.error e, slot) := by
  unfold Slot.delete
  cases slot.held with
  | directory => exact .inr ⟨_, rfl⟩
  | outOfReach fault => exact .inr ⟨_, rfl⟩
  | nothing => exact .inl rfl
  | snapshot z => exact .inl rfl
  | unreadable => exact .inl rfl
  | foreign => exact .inl rfl

namespace Iteration

variable {plan : Plan α} {s : Session α}

/-- The checkpoint of a run that is over is removed, unless it cannot be. -/
theorem clearCheckpoint_ends (plan : Plan α) (s : Session α) :
    (clearCheckpoint plan).Ends s
      (fun _ s' => s'.inertia = s.inertia ∧ (plan.period.isSome → s'.slot.held = .nothing))
      (fun _ s' => s.SameSaves s' ∧ ¬ ∃ slot, s.slot.delete = (.ok (), slot)) := by
  unfold clearCheckpoint
  split
  · simp only [Step.ends_bind, Step.ends_get, Step.ends_set]
    rcases s.slot.delete_eq with h | ⟨e, h⟩
    · rw [h]
      exact ⟨rfl, fun _ => rfl⟩
    · rw [h]
      refine ⟨⟨rfl, rfl⟩, ?_⟩
      rintro ⟨slot, hslot⟩
      cases hslot
  · rename_i hperiod
    exact ⟨rfl, fun h => absurd h hperiod⟩

/-- The result is where the rounds ended, with the inertia of all of them. -/
theorem finish_ends (plan : Plan α) (s : Session α) (last : Standing α) :
    (finish plan last).Ends s
      (fun r s' => r = ⟨last.centroids, last.epoch, last.converged, last.labels, s.inertia,
          last.timings⟩ ∧ (plan.period.isSome → s'.slot.held = .nothing))
      (fun _ s' => s.SameSaves s' ∧ ¬ ∃ slot, s.slot.delete = (.ok (), slot)) := by
  rw [finish, Step.ends_bind]
  refine (clearCheckpoint_ends plan s).mono (fun _ s' hs' => ?_) fun _ _ h => h
  simp only [Step.ends_bind, Step.ends_note, Step.ends_get, Step.ends_pure, hs'.1, true_and]
  exact hs'.2

end Iteration
end ClusterRounds
