/-
  ClusterRounds.Proofs.HandingOut

  The centroid set of a round comes to the operators by a way of its own: it is handed out to
  them, or taken up with them out of a snapshot, while all else in the round goes by the
  centroids at which the run stands. `OneSet` says that both are the same set. An operator
  that has passed a boundary holds no set, so what it is handed next is all that it holds, and
  every round that hands out its centroids has one set. A round whose sets were taken up has
  one set exactly if the snapshot holds its own centroids in every partition
  (`one_set_per_round`), which nobody checks.
-/

import ClusterRounds.Proofs.Acceptance
import ClusterRounds.Proofs.Resumption

namespace ClusterRounds

variable {α : Type}

/-! ## What a boundary makes of the sets -/

namespace Assigner

variable [Scalar α] {m : Measure α} {calls : Nat} {a : Assigner α} {epoch : Int}

/-- A boundary that is passed labels the points by the one set that the operator holds, and uses
    it up. -/
theorem exists_of_fire_eq_ok {out : Assignment α} (h : (a.fire m calls epoch).answer = .ok out) :
    ∃ set call labels, a.pending = [set] ∧ m.nearest call out.points set = .ok labels ∧
      out = ⟨epoch, labels.map fun (l : Nat) => (l : Int), out.points⟩ ∧
      (a.fire m calls epoch).assigner.pending = [] := by
  cases hsole : a.soleSet epoch with
  | error e =>
    rw [fire_of_soleSet_error m calls hsole] at h
    cases h
  | ok set =>
    cases hread : ({ a with phase := .firing } : Assigner α).readPoints with
    | error e =>
      rw [fire_of_readPoints_error m calls hsole hread] at h
      cases h
    | ok read =>
      obtain ⟨hanswer, hafter⟩ := fire_eq m calls hsole hread
      rw [hanswer] at h
      obtain ⟨labels, hlabelling, rfl⟩ := map_eq_ok.1 h
      obtain ⟨_, -, hlabels⟩ := bind_eq_ok.1 hlabelling
      refine ⟨set, _, labels, (soleSet_eq_ok.1 hsole).2, hlabels, rfl, ?_⟩
      rw [hafter, hlabelling]

end Assigner

/-! ## What the operators hold -/

namespace Session

/-- The sets that wait in each operator, with its partition. -/
def held (s : Session α) : List (Int × List (Tensor α)) := s.assigners.map fun a => (a.id, a.pending)

/-- All operators hold these sets. -/
def AllHold (s : Session α) (sets : List (Tensor α)) : Prop := ∀ e ∈ s.held, e.2 = sets

/-- There is an operator for each number, and a closed barrier for all of them. -/
structure Manned (s : Session α) : Prop where
  ids : OnePerPartition s.assigners
  barrier : ∃ stale, s.barrier = some ⟨s.assigners.length, none, stale⟩

/-- The operators hold what they held, before the same barrier. -/
structure SameHands (s t : Session α) : Prop where
  held_eq : t.held = s.held
  barrier_eq : t.barrier = s.barrier

variable {s t u : Session α}

theorem length_held (s : Session α) : s.held.length = s.assigners.length := List.length_map _

theorem map_fst_held (s : Session α) : s.held.map (·.1) = s.assigners.map (·.id) :=
  List.map_map ..

theorem allHold_iff {sets : List (Tensor α)} :
    s.AllHold sets ↔ ∀ a ∈ s.assigners, a.pending = sets := by
  rw [AllHold, held, List.forall_mem_map]

/-- Operators of the same partitions, before a closed barrier. -/
theorem Manned.congr (h : s.Manned) (hids : t.held.map (·.1) = s.held.map (·.1))
    (hbarrier : ∃ stale, t.barrier = some ⟨s.assigners.length, none, stale⟩) : t.Manned := by
  have hlength : t.assigners.length = s.assigners.length := by
    rw [← t.length_held, ← s.length_held, ← List.length_map (·.1), hids, List.length_map]
  refine ⟨?_, by rw [hlength]; exact hbarrier⟩
  have hperm := h.ids
  unfold OnePerPartition at hperm ⊢
  rwa [hlength, ← map_fst_held, hids, map_fst_held]

namespace SameHands

theorem refl (s : Session α) : s.SameHands s := ⟨rfl, rfl⟩

theorem trans (h : s.SameHands t) (h' : t.SameHands u) : s.SameHands u :=
  ⟨h'.held_eq.trans h.held_eq, h'.barrier_eq.trans h.barrier_eq⟩

/-- Nothing has been done to operators and barrier. -/
theorem of_eq (hassigners : t.assigners = s.assigners) (hbarrier : t.barrier = s.barrier) :
    s.SameHands t := ⟨by rw [held, held, hassigners], hbarrier⟩

theorem manned (h : s.SameHands t) (hs : s.Manned) : t.Manned :=
  hs.congr (by rw [h.held_eq]) (by rw [h.barrier_eq]; exact hs.barrier)

theorem allHold (h : s.SameHands t) {sets : List (Tensor α)} (hs : s.AllHold sets) :
    t.AllHold sets := by
  rw [AllHold, h.held_eq]
  exact hs

end SameHands

end Session

/-! ## Steps that leave the sets where they are -/

namespace Iteration

theorem snapshotAll_held : ∀ assigners : List (Assigner α),
    (snapshotAll assigners).2.map (fun a => (a.id, a.pending))
      = assigners.map fun a => (a.id, a.pending)
  | [] => rfl
  | a :: rest => by
    rw [snapshotAll]
    cases hsnapshot : a.snapshot with
    | error e => rfl
    | ok out =>
      rw [Assigner.snapshot_eq] at hsnapshot
      obtain ⟨⟨q, b⟩, hread, rfl⟩ := map_eq_ok.1 hsnapshot
      obtain ⟨hid, -, hpending, -⟩ := Assigner.readPoints_same hread
      simp only [List.map_cons, hid, hpending, snapshotAll_held rest]

section Frames

variable (plan : Plan α) (s : Session α)

theorem checkpoint_sameHands (epoch : Int) (centroids : Tensor α) :
    (checkpoint plan epoch centroids).Ends s (fun _ s' => s.SameHands s') (fun _ _ => True) := by
  unfold checkpoint
  split
  · exact .refl s
  · split
    · simp only [takeSnapshot, save, Step.ends_bind, Step.ends_get, Step.ends_set, Step.ends_pure,
        Step.ends_note]
      refine Step.ends_ofOutcome_of (fun stored _ => ?_) fun _ _ => True.intro
      refine Step.ends_ofOutcome_of (fun _ _ => ?_) fun _ _ => True.intro
      exact ⟨snapshotAll_held s.assigners, rfl⟩
    · exact .refl s

theorem update_sameHands [Scalar α] (outputs : List (PartitionOutput α)) (centroids : Tensor α) :
    (update outputs centroids).Ends s (fun _ s' => s.SameHands s') (fun _ _ => True) := by
  simp only [update, Step.ends_bind, Step.ends_get]
  refine Step.ends_ofOutcome_of (fun merged _ => ?_) fun _ _ => True.intro
  refine Step.ends_ofOutcome_of (fun means _ => ?_) fun _ _ => True.intro
  refine Step.ends_ofOutcome_of (fun collected _ => ?_) fun _ _ => True.intro
  rw [Step.ends_set]
  split
  · exact .of_eq rfl rfl
  · exact .of_eq rfl rfl

theorem askCriterion_sameHands [Scalar α] (round : Int) (next previous : Tensor α) :
    (askCriterion round next previous).Ends s (fun _ s' => s.SameHands s') (fun _ _ => True) := by
  simp only [askCriterion, Step.ends_bind, Step.ends_get, Step.ends_set, Step.ends_note]
  exact Step.ends_ofOutcome_of (fun _ _ => .of_eq rfl rfl) fun _ _ => True.intro

theorem announce_sameHands (first : Int) (stop : Bool) (report : RoundReport α) :
    (announce first stop report).Ends s (fun _ s' => s.SameHands s') (fun _ _ => True) := by
  unfold announce
  split
  · exact .of_eq rfl rfl
  · exact .refl s

end Frames

/-! ## Handing out, and using up -/

variable {plan : Plan α} {s : Session α}

/-- Every operator receives the set, on top of what it holds. -/
theorem broadcast_held (s : Session α) (centroids : Tensor α) :
    (broadcast centroids).Ends s
      (fun _ s' => s'.held = s.held.map (fun e => (e.1, e.2 ++ [centroids])) ∧
        s'.barrier = s.barrier) (fun _ _ => True) := by
  simp only [broadcast, Step.ends_bind, Step.ends_get, Step.ends_set]
  refine Step.ends_ofOutcome_of (fun assigners hassigners => ⟨?_, trivial⟩) fun _ _ => True.intro
  have hreceived : ∀ {a b : Assigner α}, a.receive centroids = .ok b →
      (a.id, a.pending ++ [centroids]) = (b.id, b.pending) := by
    intro a b hb
    rw [Assigner.receive_eq] at hb
    obtain ⟨_, -, rfl⟩ := map_eq_ok.1 hb
    rfl
  rw [Session.held, Session.held, List.map_map]
  symm
  rw [← List.forall₂_eq_eq_eq, List.forall₂_map_left_iff, List.forall₂_map_right_iff]
  exact (mapM_eq_ok.1 hassigners).imp fun _ _ hb => hreceived hb

/-- Before the boundary of a round: operators that held nothing hold its centroids. -/
theorem prepare_hands (plan : Plan α) (here : Standing α) (h : s.Manned) :
    (prepare plan here).Ends s
      (fun _ s' => s'.Manned ∧
        (here.handedOut = false → s.AllHold [] → s'.AllHold [here.centroids]))
      (fun _ _ => True) := by
  unfold prepare
  split
  · rw [Step.ends_bind]
    refine (broadcast_held s here.centroids).mono ?_ fun _ _ h => h
    rintro _ s₁ ⟨hheld, hbarrier⟩
    have hmanned : s₁.Manned := by
      refine h.congr ?_ (by rw [hbarrier]; exact h.barrier)
      rw [hheld, List.map_map]
      rfl
    have hall : s.AllHold [] → s₁.AllHold [here.centroids] := by
      intro hnone
      rw [Session.AllHold, hheld, List.forall_mem_map]
      intro e he
      rw [hnone e he]
      rfl
    exact (checkpoint_sameHands plan s₁ here.epoch here.centroids).mono
      (fun _ _ hsame => ⟨hsame.manned hmanned, fun _ hnone => hsame.allHold (hall hnone)⟩)
      fun _ _ h => h
  · rename_i hhanded
    exact ⟨h, fun hnot => absurd (by rw [hnot]; rfl) hhanded⟩

section Rounds

variable [Scalar α] {here : Standing α}

/-- What a partition brings is labelled by a set: the points have their nearest centroids in it, and
    the sums and the inertia are those of these labels. -/
def LabelledBy (plan : Plan α) (here : Standing α) (set : Tensor α) (o : PartitionOutput α) : Prop :=
  ∃ points call labels, plan.measure.nearest call points set = .ok labels ∧
    output plan.settings.k here.centroids
      ⟨here.epoch, labels.map fun (l : Nat) => (l : Int), points⟩ = .ok o

/-- The boundary is passed in a partition. -/
theorem crossing_hands {a : Assigner α} {call : Nat} {o : PartitionOutput α}
    (h : crossing plan.measure plan.settings.k here.centroids call here.epoch a = .ok o) :
    (a.fire plan.measure call here.epoch).assigner.pending = [] ∧
      ∃ set, a.pending = [set] ∧ LabelledBy plan here set o := by
  obtain ⟨out, hanswer, houtput⟩ := bind_eq_ok.1 h
  obtain ⟨set, call', labels, hpending, hlabels, hout, hused⟩ :=
    Assigner.exists_of_fire_eq_ok hanswer
  exact ⟨hused, set, hpending, out.points, call', labels, hlabels, hout ▸ houtput⟩

/-- Behind the boundary the operators hold nothing, and what the partitions have brought is labelled
    by the set that they held. -/
theorem firePartitions_hands (h : s.Manned) :
    (firePartitions plan here.epoch here.centroids).Ends s
      (fun outputs s' => s'.Manned ∧ s'.AllHold [] ∧
        ∀ set, s.AllHold [set] → ∀ o ∈ outputs, LabelledBy plan here set o)
      (fun _ _ => True) := by
  obtain ⟨stale, hbarrier⟩ := h.barrier
  refine (firePartitions_ends h.ids hbarrier).mono (fun outputs s' hall => ?_) fun _ _ _ => True.intro
  have hids : s'.assigners.map (·.id) = s.assigners.map (·.id) := by
    refine List.ext_getElem? fun i => ?_
    rw [List.getElem?_map, List.getElem?_map]
    cases ha : s.assigners[i]? with
    | none =>
      have hnone : s'.assigners[i]? = none := by
        rw [List.getElem?_eq_none_iff, hall.length]
        exact List.getElem?_eq_none_iff.1 ha
      rw [hnone]
    | some a =>
      obtain ⟨call, _, hb, -, -⟩ := hall.crossed i a ha
      rw [hb]
      exact congrArg some (Assigner.fire_id plan.measure call a here.epoch)
  refine ⟨h.congr (by rw [Session.map_fst_held, Session.map_fst_held, hids]) ⟨[], hall.barrier⟩,
    ?_, fun set hheld o ho => ?_⟩
  · rw [Session.allHold_iff]
    intro b hb
    obtain ⟨i, hi, rfl⟩ := List.mem_iff_getElem.1 hb
    have hi' : i < s.assigners.length := hall.length ▸ hi
    obtain ⟨call, o, hb', hcross, -⟩ :=
      hall.crossed i s.assigners[i] (List.getElem?_eq_getElem hi')
    rw [List.getElem?_eq_getElem hi, Option.some.injEq] at hb'
    rw [hb']
    exact (crossing_hands hcross).1
  · -- the output at a place is that of the partition with its number
    obtain ⟨p, hp, rfl⟩ := List.mem_iff_getElem.1 ho
    obtain ⟨i, a, ha, hid⟩ := h.ids.exists_of_lt (hall.outputs_length ▸ hp)
    obtain ⟨call, o, -, hcross, ho⟩ := hall.crossed i a ha
    rw [hid, Int.toNat_natCast, List.getElem?_eq_getElem hp, Option.some.injEq] at ho
    obtain ⟨-, set', hpending, hlabelled⟩ := crossing_hands hcross
    have hset := Session.allHold_iff.1 hheld a (List.mem_of_getElem? ha)
    rw [hpending, List.singleton_inj] at hset
    rw [ho, ← hset]
    exact hlabelled

/-- A round that is over leaves no set behind, and the next one hands out its own. -/
theorem round_hands (first : Int) (here : Standing α) (h : s.Manned) :
    (round plan first here).Ends s
      (fun out s' => out.1.handedOut = false ∧ s'.Manned ∧ s'.AllHold []) (fun _ _ => True) := by
  simp only [round, Step.ends_bind]
  refine (prepare_hands plan here h).mono (fun _ s₁ h₁ => ?_) fun _ _ h => h
  apply Step.ends_timed
  intro clock
  have hclock : s₁.SameHands { s₁ with clock } := .of_eq rfl rfl
  refine (firePartitions_hands (hclock.manned h₁.1)).mono (fun outputs s₂ h₂ => ?_)
    fun _ _ _ _ => True.intro
  intro assign clock
  apply Step.ends_timed
  intro clock
  refine (update_sameHands _ outputs here.centroids).mono (fun next s₃ h₃ => ?_)
    fun _ _ _ _ => True.intro
  intro stretch clock
  rw [Step.ends_modify]
  refine Step.ends_ofOutcome_of (fun change _ => ?_) fun _ _ => True.intro
  refine (askCriterion_sameHands _ _ next here.centroids).mono (fun stop s₄ h₄ => ?_) fun _ _ h => h
  rw [Step.ends_get]
  refine (announce_sameHands _ first stop _).mono (fun _ s₅ h₅ => ?_) fun _ _ h => h
  -- nothing is done to the operators behind the boundary
  have hsame : s₂.SameHands s₅ := by
    have hbefore : s₂.SameHands s₃ := ⟨h₃.held_eq, h₃.barrier_eq⟩
    have hafter : s₃.SameHands s₄ := ⟨h₄.held_eq, h₄.barrier_eq⟩
    exact (hbefore.trans hafter).trans h₅
  exact ⟨rfl, hsame.manned h₂.1, hsame.allHold h₂.2.1⟩

/-! ## All rounds of a run -/

/-- Where the loop over the rounds comes by, and after how many of them. -/
inductive Onward (plan : Plan α) (first : Int) (here : Standing α) (s : Session α) :
    Nat → Standing α → Session α → Prop
  | here : Onward plan first here s 0 here s
  | round {n : Nat} {mid next : Standing α} {t t' : Session α}
      (before : Onward plan first here s n mid t)
      (round : round plan first mid t = .ok (next, false) t') :
      Onward plan first here s (n + 1) next t'

variable {first : Int} {mid : Standing α} {t : Session α} {n : Nat}

/-- The loop goes on from there as it would have started there. -/
theorem Onward.rounds_eq (h : Onward plan first here s n mid t) (fuel : Nat) :
    rounds plan first (n + fuel) here s = rounds plan first fuel mid t := by
  induction h generalizing fuel with
  | here => rw [Nat.zero_add]
  | @round n mid next t t' _ hround ih =>
    rw [Nat.add_assoc, Nat.add_comm 1 fuel, ih (fuel + 1)]
    show EStateM.bind (Iteration.round plan first mid) _ t = _
    unfold EStateM.bind
    rw [hround]
    rfl

/-- In every round that has come about, the operators are before the boundary, and behind the first
    round they hold nothing. -/
theorem Onward.hands (h : Onward plan first here s n mid t) (hs : s.Manned) :
    t.Manned ∧ (n ≠ 0 → mid.handedOut = false ∧ t.AllHold []) := by
  induction h with
  | here => exact ⟨hs, fun h => absurd rfl h⟩
  | round _ hround ih =>
    obtain ⟨hhanded, hmanned, hnone⟩ := (round_hands first _ ih.1).of_ok hround
    exact ⟨hmanned, fun _ => ⟨hhanded, hnone⟩⟩

/-- The round at hand has one set: the centroids at which the run stands wait in every operator, and
    what the partitions bring is labelled by them. All that follows in the round, from the inertia to
    the question to the criterion, goes by these centroids in any case. -/
structure OneSet (plan : Plan α) (here : Standing α) (s : Session α) : Prop where
  waits : ∀ s', prepare plan here s = .ok () s' → s'.AllHold [here.centroids]
  labels : ∀ s' clock outputs s'', prepare plan here s = .ok () s' →
    firePartitions plan here.epoch here.centroids { s' with clock } = .ok outputs s'' →
      ∀ o ∈ outputs, LabelledBy plan here here.centroids o

theorem oneSet_of_waits (hs : s.Manned)
    (h : ∀ s', prepare plan here s = .ok () s' → s'.AllHold [here.centroids]) :
    OneSet plan here s where
  waits := h
  labels s' clock outputs s'' hprepare hfire := by
    have hclock : s'.SameHands { s' with clock } := .of_eq rfl rfl
    have hmanned := hclock.manned ((prepare_hands plan here hs).of_ok hprepare).1
    have hheld := hclock.allHold (h s' hprepare)
    exact ((firePartitions_hands hmanned).of_ok hfire).2.2 here.centroids hheld

/-- A round that hands out its centroids to operators that hold nothing has one set. -/
theorem oneSet_of_none (hs : s.Manned) (hhanded : here.handedOut = false) (hnone : s.AllHold []) :
    OneSet plan here s :=
  oneSet_of_waits hs fun _ hprepare => ((prepare_hands plan here hs).of_ok hprepare).2 hhanded hnone

/-- A round whose sets were handed out before has one set exactly if these are its centroids. -/
theorem oneSet_iff_of_handedOut (hs : s.Manned) (hhanded : here.handedOut = true) :
    OneSet plan here s ↔ s.AllHold [here.centroids] := by
  have hprepare : prepare plan here s = .ok () s := by
    unfold prepare
    rw [hhanded]
    rfl
  refine ⟨fun h => h.waits s hprepare, fun h => oneSet_of_waits hs fun s' hs' => ?_⟩
  rw [hprepare] at hs'
  cases hs'
  exact h

end Rounds

/-! ## Before the rounds -/

section Before

variable (plan : Plan α) (s : Session α)

theorem enter_hands (h : OnePerPartition s.assigners) :
    (enter plan).Ends s (fun _ s' => s'.Manned ∧ s'.assigners = s.assigners) (fun _ _ => True) := by
  simp only [enter, Step.ends_bind, Step.ends_get, Step.ends_set]
  refine Step.ends_ofOutcome_of (fun barrier hbarrier => ?_) fun _ _ => True.intro
  obtain ⟨-, hparties⟩ := Barrier.ofParties_eq_ok.1 hbarrier
  refine (openPool_ends plan _).mono (fun _ s' hs' => ?_) fun _ _ _ => True.intro
  obtain ⟨pool, rfl⟩ := hs'
  exact ⟨⟨h, [], by rw [hparties]⟩, rfl⟩

/-- A run starts with an operator for each partition that holds nothing. -/
theorem start_hands (partitions : List (Tensor α)) (initial : Tensor α) :
    (start plan partitions initial).Ends s
      (fun _ s' => OnePerPartition s'.assigners ∧ ∀ a ∈ s'.assigners, a.pending = [])
      (fun _ _ => True) := by
  refine (start_loads plan s partitions initial).mono ?_ fun _ _ _ => True.intro
  rintro _ s' ⟨-, hloaded⟩
  rw [hloaded]
  refine ⟨?_, fun a ha => ?_⟩
  · rw [OnePerPartition, map_id_loaded, List.length_map, List.length_zipIdx]
  · obtain ⟨entry, -, rfl⟩ := List.mem_map.1 ha
    rfl

/-- A snapshot that is taken up brings an operator for each partition, with the sets that are stored
    of it. -/
theorem takeUp_hands (given : Option (Snapshot α)) :
    (takeUp plan given).Ends s
      (fun z s' => OnePerPartition s'.assigners ∧ ∀ sets,
        (∀ a ∈ s'.assigners, a.pending = sets) ↔ ∀ entry ∈ z.partitions, entry.2.pending = sets)
      (fun _ _ => True) := by
  refine (takeUp_accepts plan given s).mono ?_ fun _ _ _ => True.intro
  rintro z s' ⟨htaken, hall, -⟩
  have hids : s'.assigners.map (·.id)
      = (List.range s'.assigners.length).map fun (i : Nat) => (i : Int) := by
    have hlength : z.partitions.length = s'.assigners.length :=
      (List.length_mergeSort _).symm.trans hall.length_eq
    rw [← ids_of_restored hall, Snapshot.map_ordered, (accepted_of_askedFor htaken.1).ids_eq, hlength]
  refine ⟨by rw [OnePerPartition, hids], fun sets => ?_⟩
  have hsets : (∀ p ∈ s'.assigners.map (·.pending), p = sets) ↔
      ∀ p ∈ z.ordered.map (·.2.pending), p = sets := by
    rw [pending_of_restored hall]
  rw [List.forall_mem_map, List.forall_mem_map] at hsets
  simpa only [Snapshot.mem_ordered] using hsets

end Before

end Iteration

/-- Every round of a run has one set. Of a run that takes up a snapshot, which is neither refused nor
    breaks off, every round behind the first has one set; and the first has one exactly if what is
    stored of each partition is the set of the snapshot's own centroids. -/
theorem one_set_per_round [Scalar α] (plan : Plan α) (s : Session α) :
    (∀ partitions initial s₁ s₂, Iteration.start plan partitions initial s = .ok () s₁ →
      Iteration.enter plan s₁ = .ok () s₂ → ∀ n here t,
        Iteration.Onward plan 0 (.atStart initial 0 false) s₂ n here t →
          Iteration.OneSet plan here t) ∧
    ∀ given z s₁ s₂, Iteration.takeUp plan given s = .ok z s₁ →
      Iteration.enter plan s₁ = .ok () s₂ → ∀ n here t,
        Iteration.Onward plan z.epoch (.atStart z.centroids z.epoch true) s₂ n here t →
          (Iteration.OneSet plan here t ↔
            n ≠ 0 ∨ ∀ entry ∈ z.partitions, entry.2.pending = [z.centroids]) := by
  constructor
  · intro partitions initial s₁ s₂ hstart henter n here t honward
    obtain ⟨hids, hnone⟩ := (Iteration.start_hands plan s partitions initial).of_ok hstart
    obtain ⟨hmanned, hassigners⟩ := (Iteration.enter_hands plan s₁ hids).of_ok henter
    cases n with
    | zero =>
      cases honward
      refine Iteration.oneSet_of_none hmanned rfl ?_
      rw [Session.allHold_iff, hassigners]
      exact hnone
    | succ n =>
      obtain ⟨ht, hlater⟩ := honward.hands hmanned
      obtain ⟨hhanded, hnone⟩ := hlater (Nat.succ_ne_zero n)
      exact Iteration.oneSet_of_none ht hhanded hnone
  · intro given z s₁ s₂ htakeUp henter n here t honward
    obtain ⟨hids, hstored⟩ := (Iteration.takeUp_hands plan s given).of_ok htakeUp
    obtain ⟨hmanned, hassigners⟩ := (Iteration.enter_hands plan s₁ hids).of_ok henter
    cases n with
    | zero =>
      cases honward
      rw [Iteration.oneSet_iff_of_handedOut hmanned rfl, Session.allHold_iff, hassigners]
      exact (hstored [z.centroids]).trans ⟨.inr, fun h => h.resolve_left (absurd rfl)⟩
    | succ n =>
      obtain ⟨ht, hlater⟩ := honward.hands hmanned
      obtain ⟨hhanded, hnone⟩ := hlater (Nat.succ_ne_zero n)
      exact iff_of_true (Iteration.oneSet_of_none ht hhanded hnone) (.inl (Nat.succ_ne_zero n))

/-! ## A snapshot with another set -/

namespace Sample

/-- One round, and no tolerance. -/
def briefSettings : Settings :=
  { settings with maxRounds := 1, tolerance := none, maxRounds_pos := Nat.one_pos }

/-- The points are near the first of the centroids, and near the second of the set that waits. -/
def astray : Snapshot Rat where
  epoch := 0
  centroids := column [0, 10]
  partitions :=
    [(0, ⟨0, some (column [1, 2]), [column [100, 1]], none, .known .accumulating⟩)]
  settings := briefSettings
  inertia := []

def briefPlan : Plan Rat := { (attempt task.measure).plan with settings := briefSettings }

def briefSession : Session Rat := .start briefPlan (.ofSettings briefSettings) place (.stepping 0)

/-- The session that has taken up the snapshot. -/
def strayed : Session Rat :=
  { briefSession with
    assigners := [⟨0, .accumulating, [column [1, 2]], none, [column [100, 1]], none⟩]
    journal := [.restored 0 2 1 none, .resumed 1 1] }

theorem validate_astray : astray.validate = .ok () := by
  have hids : astray.ids = [0] := List.mergeSort_singleton 0
  simp only [Snapshot.validate, hids]
  rfl

theorem takeUp_astray :
    Iteration.takeUp briefPlan (some astray) briefSession = .ok astray strayed := by
  have hordered : astray.ordered = astray.partitions := List.mergeSort_singleton _
  have hends : (Iteration.takeUp briefPlan (some astray)).Ends briefSession
      (fun z s => z = astray ∧ s = strayed) (fun _ _ => False) := by
    simp only [Iteration.takeUp, Iteration.snapshotFor, validate_astray, hordered, Step.ends_bind,
      Step.ends_ofOutcome_ok, Step.ends_pure]
    exact ⟨rfl, rfl⟩
  obtain ⟨_, _, htakeUp, rfl, rfl⟩ := hends.exists_ok fun _ _ h => h
  exact htakeUp

theorem exists_answer {x : EStateM.Result Failure (Session Rat) (RunResult Rat)}
    {p : RunResult Rat → Bool} (h : (match x with
      | .ok r _ => p r
      | .error _ _ => false) = true) :
    ∃ r s, x = .ok r s ∧ p r = true := by
  cases x with
  | ok r s => exact ⟨r, s, rfl, h⟩
  | error e s => cases h

end Sample

/-- The snapshot is accepted, and its run labels both points by the set that waits. Their nearest of
    the centroids by which the inertia goes is the other one. -/
theorem labelled_by_another_set : Sample.astray.validate = .ok () ∧
    (∃ r s, Iteration.resume Sample.briefPlan (some Sample.astray) Sample.briefSession = .ok r s ∧
      r.labels = [1, 1] ∧ r.inertia = [145]) ∧
    (Sample.task.measure.nearest 1 (Sample.column [1, 2]) Sample.astray.centroids).toOption
      = some [0, 0] := by
  refine ⟨Sample.validate_astray, ?_, by decide +kernel⟩
  have hresume : Iteration.resume Sample.briefPlan (some Sample.astray) Sample.briefSession
      = Iteration.iterate Sample.briefPlan (Sample.column [0, 10]) 0 true Sample.strayed := by
    rw [Iteration.resume_eq_bind]
    show EStateM.bind _ _ _ = _
    rw [EStateM.bind, Sample.takeUp_astray]
    rfl
  rw [hresume]
  obtain ⟨r, s, hr, hshown⟩ := Sample.exists_answer
    (x := Iteration.iterate Sample.briefPlan (Sample.column [0, 10]) 0 true Sample.strayed)
    (p := fun r => decide (r.labels = [1, 1] ∧ r.inertia = [145])) (by decide +kernel)
  exact ⟨r, s, hr, of_decide_eq_true hshown⟩

end ClusterRounds
