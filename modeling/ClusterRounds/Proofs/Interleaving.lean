/-
  ClusterRounds.Proofs.Interleaving

  The boundary of a round in all partitions, whichever way the moves of the workers
  interleave. `Midway` says how far the round has come when some of the moves are made:
  the operators whose boundary is passed, what they brought, and what has arrived. Each
  move keeps it, so the end is the same for every order that a schedule can have: every
  operator has passed its boundary, and the barrier hands out what they brought in the
  order of the partitions (`firePartitions_ends`).
-/

import ClusterRounds.Proofs.Boundary
import ClusterRounds.Proofs.Step

namespace ClusterRounds

variable {α : Type}

/-- Two sessions that differ at most in the operators, the barrier and the count of calls. -/
def Session.SameElse (s t : Session α) : Prop :=
  t = { s with assigners := t.assigners, barrier := t.barrier, calls := t.calls }

namespace Session.SameElse

variable {s t u : Session α}

theorem refl (s : Session α) : s.SameElse s := rfl

theorem trans (h : s.SameElse t) (h' : t.SameElse u) : s.SameElse u := by
  unfold SameElse at *
  rw [h', h]

theorem of_eq (assigners : List (Assigner α)) (barrier : Option (Barrier (PartitionOutput α)))
    (calls : Nat) : s.SameElse { s with assigners, barrier, calls } := rfl

section

variable (h : s.SameElse t)

include h

theorem eq : t = { s with assigners := t.assigners, barrier := t.barrier, calls := t.calls } := h

theorem slot_eq : t.slot = s.slot := (congrArg Session.slot h.eq :)

theorem collector_eq : t.collector = s.collector := (congrArg Session.collector h.eq :)

theorem inertia_eq : t.inertia = s.inertia := (congrArg Session.inertia h.eq :)

theorem criterion_eq : t.criterion = s.criterion := (congrArg Session.criterion h.eq :)

theorem journal_eq : t.journal = s.journal := (congrArg Session.journal h.eq :)

end

end Session.SameElse

/-! ## Operators by number -/

/-- The operators of the partitions: one for each number from zero, in any order. -/
def OnePerPartition (assigners : List (Assigner α)) : Prop :=
  (assigners.map (·.id)).Perm ((List.range assigners.length).map fun (i : Nat) => (i : Int))

namespace OnePerPartition

variable {assigners : List (Assigner α)} (h : OnePerPartition assigners)

include h

theorem nodup : (assigners.map (·.id)).Nodup :=
  h.nodup_iff.2 (List.Pairwise.map _ (fun _ _ hne heq => hne (Int.ofNat.inj heq)) List.nodup_range)

theorem mem_range {i : Nat} {a : Assigner α} (ha : assigners[i]? = some a) :
    ∃ p : Nat, p < assigners.length ∧ a.id = p := by
  have hmem : a.id ∈ assigners.map (·.id) := List.mem_map.2 ⟨a, List.mem_of_getElem? ha, rfl⟩
  rw [h.mem_iff] at hmem
  obtain ⟨p, hp, heq⟩ := List.mem_map.1 hmem
  exact ⟨p, List.mem_range.1 hp, heq.symm⟩

theorem exists_of_lt {p : Nat} (hp : p < assigners.length) :
    ∃ (i : Nat) (a : Assigner α), assigners[i]? = some a ∧ a.id = p := by
  have hmem : (p : Int) ∈ assigners.map (·.id) :=
    h.mem_iff.2 (List.mem_map.2 ⟨p, List.mem_range.2 hp, rfl⟩)
  obtain ⟨a, ha, hid⟩ := List.mem_map.1 hmem
  obtain ⟨i, hi⟩ := List.mem_iff_getElem?.1 ha
  exact ⟨i, a, hi, hid⟩

theorem place_unique {i j : Nat} {a b : Assigner α} (ha : assigners[i]? = some a)
    (hb : assigners[j]? = some b) (hid : a.id = b.id) : i = j := by
  have hi : (assigners.map (·.id))[i]? = some a.id := by rw [List.getElem?_map, ha]; rfl
  have hj : (assigners.map (·.id))[j]? = some a.id := by rw [List.getElem?_map, hb, hid]; rfl
  obtain ⟨hlt, -⟩ := List.getElem?_eq_some_iff.1 hi
  exact (List.getElem?_inj hlt h.nodup).1 (hi.trans hj.symm)

end OnePerPartition

namespace Iteration

variable [Scalar α]

/-! ## The measure's count of calls -/

section Stateless

variable {m : Measure α} (hm : m.Stateless)

include hm

theorem nearest_stateless (c c' : Nat) (points centroids : Tensor α) :
    m.nearest c points centroids = m.nearest c' points centroids := by
  unfold Measure.nearest
  rw [hm c c' points centroids]

/-- An operator passes its boundary in one way only if the measure keeps no state. -/
theorem fire_stateless (c c' : Nat) (a : Assigner α) (epoch : Int) :
    (a.fire m c epoch).answer = (a.fire m c' epoch).answer ∧
      (a.fire m c epoch).assigner = (a.fire m c' epoch).assigner := by
  unfold Assigner.fire
  split
  · exact ⟨rfl, rfl⟩
  · dsimp only
    split
    · exact ⟨rfl, rfl⟩
    · split
      · exact ⟨rfl, rfl⟩
      · rename_i points _ _ _ _
        rw [nearest_stateless hm _ (if points.rowTotal = 0 then c' else c' + 1)]
        split <;> exact ⟨rfl, rfl⟩

theorem crossing_stateless (c c' : Nat) (k : Nat) (centroids : Tensor α) (epoch : Int)
    (a : Assigner α) : crossing m k centroids c epoch a = crossing m k centroids c' epoch a := by
  unfold crossing
  rw [(fire_stateless hm c c' a epoch).1]

end Stateless

/-! ## How far a round has come -/

section Moves

variable {plan : Plan α} {epoch : Int} {centroids : Tensor α} {s₀ s : Session α}

/-- The boundary fails in one of the partitions. -/
def SomeCrossingFails (plan : Plan α) (epoch : Int) (centroids : Tensor α)
    (s₀ : Session α) : Prop :=
  ∃ (i : Nat) (a : Assigner α) (call : Nat) (e : Failure), s₀.assigners[i]? = some a ∧
    crossing plan.measure plan.settings.k centroids call epoch a = .error e

/-- What has happened since `s₀` when the moves `done` are made. -/
structure Midway (plan : Plan α) (epoch : Int) (centroids : Tensor α) (s₀ : Session α)
    (done : List Move) (made : List (InHand α)) (arrived : List (Int × PartitionOutput α))
    (s : Session α) : Prop where
  same : s₀.SameElse s
  length : s.assigners.length = s₀.assigners.length
  later : ∀ i, .arrive i ∈ done → .fire i ∈ done
  waiting : ∀ i, .fire i ∉ done → s.assigners[i]? = s₀.assigners[i]?
  unmade : ∀ i, .fire i ∉ done → made.find? (·.place = i) = none
  crossed : ∀ (i : Nat) (a : Assigner α), .fire i ∈ done → s₀.assigners[i]? = some a →
    ∃ call output, s.assigners[i]? = some (a.fire plan.measure call epoch).assigner ∧
    crossing plan.measure plan.settings.k centroids call epoch a = .ok output ∧
    made.find? (·.place = i) = some ⟨i, a.id, output⟩ ∧
    (.arrive i ∈ done → arrived.lookup a.id = some output)
  keys : arrived.map (·.1)
    = (done.filterMap Move.arrival?).filterMap fun i => s₀.assigners[i]?.map (·.id)
  barrier : s.barrier = some ⟨s₀.assigners.length, some epoch, arrived⟩

theorem midway_start (hb : s₀.barrier = some ⟨s₀.assigners.length, some epoch, []⟩) :
    Midway plan epoch centroids s₀ [] [] [] s₀ where
  same := .refl s₀
  length := rfl
  later _ h := nomatch h
  waiting _ _ := rfl
  unmade _ _ := rfl
  crossed _ _ h := nomatch h
  keys := rfl
  barrier := hb

variable {done rest : List Move} {made : List (InHand α)}
  {arrived : List (Int × PartitionOutput α)} {place : Nat}

/-- A partition passes its boundary. -/
theorem Midway.fire (h : Midway plan epoch centroids s₀ done made arrived s)
    (hnew : .fire place ∉ done) (hplace : place < s₀.assigners.length) :
    (act plan epoch centroids made (.fire place)).Ends s
      (fun made' s' => Midway plan epoch centroids s₀ (done ++ [.fire place]) made' arrived s')
      (fun _ s' => s₀.SameElse s' ∧ SomeCrossingFails plan epoch centroids s₀) := by
  obtain ⟨a, ha⟩ : ∃ a, s₀.assigners[place]? = some a := ⟨_, List.getElem?_eq_getElem hplace⟩
  have hs : s.assigners[place]? = some a := (h.waiting place hnew).trans ha
  have hlt : place < s.assigners.length := by rw [h.length]; exact hplace
  have hsame : ∀ b, s₀.SameElse { s with
      assigners := s.assigners.set place b, calls := (a.fire plan.measure s.calls epoch).calls } :=
    fun b => h.same.trans (.of_eq _ _ _)
  simp only [act, firePartition, Step.ends_bind, Step.ends_get, hs, Step.ends_set, Step.ends_pure]
  apply Step.ends_ofOutcome_of
  · intro assignment hanswer
    apply Step.ends_ofOutcome_of
    · intro output houtput
      have hcross : crossing plan.measure plan.settings.k centroids s.calls epoch a
          = .ok output := by
        unfold crossing
        rw [hanswer]
        exact houtput
      refine ⟨hsame _, by simp [h.length], ?_, ?_, ?_, ?_, ?_, h.barrier⟩
      · intro i hi
        exact List.mem_append_left _ (h.later i (by simpa using hi))
      · intro i hi
        simp only [List.mem_append, List.mem_singleton, Move.fire.injEq, not_or] at hi
        rw [List.getElem?_set_ne (Ne.symm hi.2)]
        exact h.waiting i hi.1
      · intro i hi
        simp only [List.mem_append, List.mem_singleton, Move.fire.injEq, not_or] at hi
        simp [h.unmade i hi.1, Ne.symm hi.2]
      · intro i b hi hb
        -- the new output is that of this place; other places have what they had
        by_cases hip : i = place
        · subst hip
          rw [ha, Option.some.injEq] at hb
          subst hb
          refine ⟨s.calls, output, List.getElem?_set_self hlt, hcross, ?_, ?_⟩
          · simp [h.unmade i hnew]
          · intro harr
            exact absurd (h.later i (by simpa using harr)) hnew
        · have hid : .fire i ∈ done := by
            simpa [hip] using hi
          obtain ⟨call, o, h1, h2, h3, h4⟩ := h.crossed i b hid hb
          refine ⟨call, o, ?_, h2, ?_, ?_⟩
          · rw [List.getElem?_set_ne (Ne.symm hip)]
            exact h1
          · simp [h3]
          · intro harr
            exact h4 (by simpa using harr)
      · rw [h.keys, List.filterMap_append]
        simp [Move.arrival?]
    · intro e he
      refine ⟨hsame _, place, a, s.calls, e, ha, ?_⟩
      unfold crossing
      rw [hanswer]
      exact he
  · intro e he
    refine ⟨hsame _, place, a, s.calls, e, ha, ?_⟩
    unfold crossing
    rw [he]
    rfl

/-- What a partition has made arrives. -/
theorem Midway.arrive (h : Midway plan epoch centroids s₀ done made arrived s)
    (hfired : .fire place ∈ done) (hnew : .arrive place ∉ done)
    (hplace : place < s₀.assigners.length) (hids : OnePerPartition s₀.assigners) :
    (act plan epoch centroids made (.arrive place)).Ends s
      (fun made' s' => ∃ arrived',
        Midway plan epoch centroids s₀ (done ++ [.arrive place]) made' arrived' s')
      (fun _ _ => False) := by
  obtain ⟨a, ha⟩ : ∃ a, s₀.assigners[place]? = some a := ⟨_, List.getElem?_eq_getElem hplace⟩
  obtain ⟨call, output, hcrossed, hcross, hmade, -⟩ := h.crossed place a hfired ha
  obtain ⟨p, hp, hid⟩ := hids.mem_range ha
  -- two arrivals of one party would be two of one place
  have hkeys : a.id ∉ arrived.map (·.1) := by
    rw [h.keys]
    intro hmem
    obtain ⟨i, hi, hia⟩ := List.mem_filterMap.1 hmem
    obtain ⟨b, hb, hba⟩ := Option.map_eq_some_iff.1 hia
    obtain ⟨m, hm, hmi⟩ := List.mem_filterMap.1 hi
    cases hids.place_unique hb ha hba
    cases m with
    | fire j => cases hmi
    | arrive j => cases hmi; exact hnew hm
  have hfresh : ∀ e ∈ arrived, e.1 ≠ a.id :=
    fun e he heq => hkeys (List.mem_map.2 ⟨e, he, heq⟩)
  -- so the barrier lets it in
  have harrive : (⟨s₀.assigners.length, some epoch, arrived⟩ :
        Barrier (PartitionOutput α)).arrive a.id epoch output
      = .ok ⟨s₀.assigners.length, some epoch, arrived ++ [(a.id, output)]⟩ := by
    have hany : arrived.any (·.1 = a.id) = false := by simpa using fun a b h => hfresh (a, b) h
    have h0 : ¬ (a.id < 0) := by omega
    have hn : ¬ ((s₀.assigners.length : Int) ≤ a.id) := by omega
    simp [Barrier.arrive, hany, h0, hn]
  simp only [act, hmade, deliver, Step.ends_bind, Step.ends_get, h.barrier, harrive,
    Step.ends_ofOutcome_ok, Step.ends_set, Step.ends_pure]
  refine ⟨arrived ++ [(a.id, output)], h.same.trans (.of_eq _ _ _), h.length, ?_, ?_, ?_, ?_, ?_,
    rfl⟩
  · intro i hi
    refine List.mem_append_left _ ?_
    by_cases hip : i = place
    · exact hip ▸ hfired
    · exact h.later i (by simpa [hip] using hi)
  · intro i hi
    exact h.waiting i (by simpa using hi)
  · intro i hi
    exact h.unmade i (by simpa using hi)
  · intro i b hi hb
    obtain ⟨call', o, h1, h2, h3, h4⟩ := h.crossed i b (by simpa using hi) hb
    refine ⟨call', o, h1, h2, h3, fun hi' => ?_⟩
    by_cases hip : i = place
    · subst hip
      rw [hmade, Option.some.injEq, InHand.mk.injEq] at h3
      have hnone : arrived.lookup a.id = none := by
        rw [List.lookup_eq_none_iff]
        intro e he
        simpa using (hfresh e he).symm
      rw [← h3.2.1, List.lookup_append, hnone, ← h3.2.2]
      simp
    · have := h4 (by simpa [hip] using hi')
      rw [List.lookup_append, this]
      rfl
  · rw [List.map_append, h.keys, List.filterMap_append, List.filterMap_append]
    simp [Move.arrival?, ha]

/-! ## All moves of a round -/

/-- Whichever way a move ends, nothing else changes. -/
theorem act_sameElse (plan : Plan α) (epoch : Int) (centroids : Tensor α)
    (made : List (InHand α)) (m : Move) (s : Session α) :
    (act plan epoch centroids made m).Ends s (fun _ s' => s.SameElse s')
      (fun _ s' => s.SameElse s') := by
  cases m with
  | fire i =>
    simp only [act, firePartition, Step.ends_bind, Step.ends_get]
    cases ha : s.assigners[i]? with
    | none => exact .refl s
    | some a =>
      simp only [Step.ends_bind, Step.ends_set, Step.ends_pure]
      apply Step.ends_ofOutcome_of
      · intro assignment _
        exact Step.ends_ofOutcome_of (fun _ _ => .of_eq _ _ _) fun _ _ => .of_eq _ _ _
      · exact fun _ _ => .of_eq _ _ _
  | arrive i =>
    simp only [act]
    split
    · exact .refl s
    · simp only [deliver, Step.ends_bind, Step.ends_get]
      cases hb : s.barrier with
      | none => exact .refl s
      | some b =>
        simp only [Step.ends_bind, Step.ends_set, Step.ends_pure]
        exact Step.ends_ofOutcome_of (fun _ _ => .of_eq _ _ _) fun _ _ => .refl s

/-- All moves, however they end. -/
theorem makeMoves_sameElse (plan : Plan α) (epoch : Int) (centroids : Tensor α) (size : Nat)
    (moves : List Move) (s : Session α) :
    (makeMoves plan epoch centroids size moves).Ends s (fun _ s' => s.SameElse s')
      (fun _ s' => s.SameElse s') := by
  simp only [makeMoves, Step.ends_bind, Step.ends_pure]
  refine Step.ends_foldlM (I := fun _ _ s' => s.SameElse s') (.refl s)
    fun done m rest crew s' _ h => ?_
  simp only [move]
  split
  · exact h
  · simp only [Step.ends_bind, Step.ends_attempt]
    exact (act_sameElse plan epoch centroids crew.made m s').mono (fun _ _ h' => h.trans h')
      fun _ _ h' => h.trans h'

theorem fireAll_sameElse (plan : Plan α) (epoch : Int) (centroids : Tensor α) (pool : Option Nat)
    (s : Session α) :
    (fireAll plan epoch centroids pool).Ends s (fun _ s' => s.SameElse s')
      (fun _ s' => s.SameElse s') := by
  -- a failure of the moves is raised when they are over
  have hraise : ∀ (failure : Option Failure) (s' : Session α), s.SameElse s' →
      (raise failure : Step α Unit).Ends s' (fun _ s' => s.SameElse s')
        (fun _ s' => s.SameElse s') := by
    rintro (_ | e) s' h
    · exact h
    · exact h
  cases pool with
  | none =>
    simp only [fireAll, fireInTurn, Step.ends_bind, Step.ends_get]
    exact (makeMoves_sameElse plan epoch centroids _ _ s).mono hraise fun _ _ h => h
  | some workers =>
    simp only [fireAll, fireInPool, Step.ends_bind, Step.ends_get]
    refine (makeMoves_sameElse plan epoch centroids _ _ s).mono (fun failure s' h => ?_)
      fun _ _ h => h
    refine Step.ends_ofOutcome_of (fun cut _ => ?_) fun _ _ => h
    cases cut with
    | true => exact h
    | false => exact hraise failure s' h

theorem firePartitions_sameElse (plan : Plan α) (epoch : Int) (centroids : Tensor α)
    (s : Session α) :
    (firePartitions plan epoch centroids).Ends s (fun _ s' => s.SameElse s')
      (fun _ s' => s.SameElse s') := by
  simp only [firePartitions, openBarrier, closeBarrier, Step.ends_bind, Step.ends_get]
  cases hb : s.barrier with
  | none => exact .refl s
  | some barrier =>
    simp only [Step.ends_bind, Step.ends_set]
    refine Step.ends_ofOutcome_of (fun opened _ => ?_) fun _ _ => .refl s
    have hopened : s.SameElse { s with barrier := some opened } := .of_eq _ _ _
    refine (fireAll_sameElse plan epoch centroids s.pool _).mono (fun _ s' h => ?_)
      fun _ _ h => hopened.trans h
    cases hb' : s'.barrier with
    | none => exact hopened.trans h
    | some barrier' =>
      simp only [Step.ends_bind, Step.ends_set, Step.ends_pure]
      refine Step.ends_ofOutcome_of (fun out _ => ?_) fun _ _ => hopened.trans h
      exact hopened.trans (h.trans (.of_eq _ _ _))

/-- How the workers stand when the moves `done` are made: all is well, or the boundary failed
    somewhere and nothing but operators, barrier and calls has changed. -/
def Underway (plan : Plan α) (epoch : Int) (centroids : Tensor α) (s₀ : Session α)
    (done : List Move) (crew : Crew α) (s : Session α) : Prop :=
  (crew.failed = [] ∧ ∃ arrived, Midway plan epoch centroids s₀ done crew.made arrived s) ∨
    (crew.failed ≠ [] ∧ s₀.SameElse s ∧ SomeCrossingFails plan epoch centroids s₀)

theorem Underway.move (hids : OnePerPartition s₀.assigners) {m : Move}
    (hfits : Move.Fits (done ++ m :: rest) s₀.assigners.length) (size : Nat) {crew : Crew α}
    (h : Underway plan epoch centroids s₀ done crew s) :
    (move plan epoch centroids size crew m).Ends s
      (Underway plan epoch centroids s₀ (done ++ [m])) (fun _ _ => False) := by
  rcases h with ⟨hwell, arrived, hmid⟩ | ⟨hfailed, hsame, hsome⟩
  · have hm : m.place < s₀.assigners.length := hfits.mem.1 (by simp : m ∈ _)
    have hnew : m ∉ done := by
      intro hmem
      exact (List.nodup_append.1 hfits.nodup).2.2 m hmem m (by simp) rfl
    simp only [Iteration.move, hwell, List.any_nil, Bool.false_eq_true, if_false, Step.ends_bind,
      Step.ends_attempt]
    cases m with
    | fire i =>
      refine (hmid.fire hnew hm).mono (fun made s' h' => ?_) fun e s' h' => ?_
      · exact .inl ⟨rfl, arrived, h'⟩
      · exact .inr ⟨by simp, h'.1, h'.2⟩
    | arrive i =>
      refine (hmid.arrive hfits.fire_mem_of_arrive hnew hm hids).mono (fun made s' h' => ?_)
        fun _ _ h' => h'.elim
      obtain ⟨arrived', h'⟩ := h'
      exact .inl ⟨rfl, arrived', h'⟩
  · unfold Iteration.move
    dsimp only
    split
    · exact .inr ⟨hfailed, hsame, hsome⟩
    · simp only [Step.ends_bind, Step.ends_attempt]
      refine (act_sameElse plan epoch centroids crew.made m s).mono (fun made s' h' => ?_)
        fun e s' h' => ?_
      · exact .inr ⟨hfailed, hsame.trans h', hsome⟩
      · exact .inr ⟨by simp, hsame.trans h', hsome⟩

/-- The moves of a round, in any order that fits. -/
theorem makeMoves_ends (hids : OnePerPartition s₀.assigners)
    (hb : s₀.barrier = some ⟨s₀.assigners.length, some epoch, []⟩) (size : Nat)
    {moves : List Move} (hfits : Move.Fits moves s₀.assigners.length) :
    (makeMoves plan epoch centroids size moves).Ends s₀
      (fun failure s' =>
        (failure = none ∧ ∃ made arrived, Midway plan epoch centroids s₀ moves made arrived s') ∨
        (failure.isSome ∧ s₀.SameElse s' ∧ SomeCrossingFails plan epoch centroids s₀))
      (fun _ _ => False) := by
  simp only [makeMoves, Step.ends_bind, Step.ends_pure]
  -- by induction on the moves made so far; the rest of them still fits
  refine (Step.ends_foldlM (I := Underway plan epoch centroids s₀) ?_ ?_).mono
    (fun crew s' h => ?_) fun _ _ h => h
  · exact .inl ⟨rfl, [], midway_start hb⟩
  · intro done m rest crew s hall h
    exact h.move hids (hall ▸ hfits) size
  · rcases h with ⟨hwell, arrived, hmid⟩ | ⟨hfailed, hrest⟩
    · exact .inl ⟨by simp [hwell], crew.made, arrived, hmid⟩
    · refine .inr ⟨?_, hrest⟩
      cases hf : crew.failed with
      | nil => exact absurd hf hfailed
      | cons f _ => rfl

end Moves

/-! ## The outputs -/

/-- Every operator has passed its boundary, the outputs stand in the order of the partitions, and
    the barrier is closed. -/
structure AllCrossed (plan : Plan α) (epoch : Int) (centroids : Tensor α) (s₀ : Session α)
    (outputs : List (PartitionOutput α)) (s : Session α) : Prop where
  same : s₀.SameElse s
  length : s.assigners.length = s₀.assigners.length
  outputs_length : outputs.length = s₀.assigners.length
  crossed : ∀ (i : Nat) (a : Assigner α), s₀.assigners[i]? = some a →
    ∃ call output, s.assigners[i]? = some (a.fire plan.measure call epoch).assigner ∧
    crossing plan.measure plan.settings.k centroids call epoch a = .ok output ∧
    outputs[a.id.toNat]? = some output
  barrier : s.barrier = some ⟨s₀.assigners.length, none, []⟩

/-- The boundary of the round is the last that an operator has passed. -/
theorem AllCrossed.lastEpoch {plan : Plan α} {epoch : Int} {centroids : Tensor α}
    {s₀ s : Session α} {outputs : List (PartitionOutput α)}
    (h : AllCrossed plan epoch centroids s₀ outputs s) :
    ∀ a ∈ s.assigners, a.lastEpoch = some epoch := by
  intro b hb
  obtain ⟨i, hi⟩ := List.mem_iff_getElem?.1 hb
  have hlt : i < s₀.assigners.length := h.length ▸ (List.getElem?_eq_some_iff.1 hi).1
  obtain ⟨call, o, hfired, hcross, -⟩ := h.crossed i _ (List.getElem?_eq_getElem hlt)
  rw [hi, Option.some.injEq] at hfired
  rw [hfired]
  exact Assigner.lastEpoch_of_crossing plan.measure call hcross

theorem getElem?_filterMap_range {β : Type} {f : Nat → Option β} {n : Nat}
    (h : ∀ p < n, (f p).isSome) :
    ((List.range n).filterMap f).length = n ∧
      ∀ p < n, ((List.range n).filterMap f)[p]? = f p := by
  induction n with
  | zero => exact ⟨rfl, fun p hp => absurd hp (Nat.not_lt_zero p)⟩
  | succ n ih =>
    obtain ⟨hlen, hget⟩ := ih fun p hp => h p (Nat.lt_succ_of_lt hp)
    obtain ⟨b, hb⟩ := Option.isSome_iff_exists.1 (h n (Nat.lt_succ_self n))
    have hlast : [n].filterMap f = [b] := by simp [hb]
    rw [List.range_succ, List.filterMap_append, hlast]
    refine ⟨by simp [hlen], fun p hp => ?_⟩
    rcases Nat.lt_succ_iff_lt_or_eq.1 hp with hlt | rfl
    · rw [List.getElem?_append_left (by rw [hlen]; exact hlt)]
      exact hget p hlt
    · rw [List.getElem?_append_right (Nat.le_of_eq hlen), hlen, hb]
      simp

section Outputs

variable {plan : Plan α} {epoch : Int} {centroids : Tensor α} {s₀ s : Session α}

/-- When all moves are made, the barrier hands out the outputs and closes. -/
theorem Midway.wait {moves : List Move} {made : List (InHand α)}
    {arrived : List (Int × PartitionOutput α)} (hids : OnePerPartition s₀.assigners)
    (hfits : Move.Fits moves s₀.assigners.length)
    (h : Midway plan epoch centroids s₀ moves made arrived s) :
    ∃ outputs,
      (⟨s₀.assigners.length, some epoch, arrived⟩ : Barrier (PartitionOutput α)).wait epoch
        = .ok (outputs, ⟨s₀.assigners.length, none, []⟩) ∧
      AllCrossed plan epoch centroids s₀ outputs
        { s with barrier := some ⟨s₀.assigners.length, none, []⟩ } := by
  have hfire : ∀ {i : Nat} {a : Assigner α}, s₀.assigners[i]? = some a → .fire i ∈ moves := by
    intro i a ha
    exact hfits.mem.2 (List.getElem?_eq_some_iff.1 ha).1
  have harrive : ∀ {i : Nat} {a : Assigner α}, s₀.assigners[i]? = some a →
      .arrive i ∈ moves := by
    intro i a ha
    exact hfits.mem.2 (List.getElem?_eq_some_iff.1 ha).1
  -- nobody is missing at the barrier
  have hlookup : ∀ p < s₀.assigners.length, (arrived.lookup (p : Int)).isSome := by
    intro p hp
    obtain ⟨i, a, ha, hid⟩ := hids.exists_of_lt hp
    obtain ⟨_, _, _, _, _, h4⟩ := h.crossed i a (hfire ha) ha
    rw [← hid, h4 (harrive ha)]
    rfl
  have hcount : arrived.length = s₀.assigners.length := by
    have hkeys := congrArg List.length h.keys
    rw [List.length_map, (hfits.arrivals.filterMap _).length_eq] at hkeys
    rw [hkeys]
    refine (getElem?_filterMap_range fun p hp => ?_).1
    rw [List.getElem?_eq_getElem hp]
    rfl
  obtain ⟨hlen, hget⟩ := getElem?_filterMap_range hlookup
  refine ⟨_, Barrier.wait_of_all_arrived hcount, h.same.trans (.of_eq _ _ _), h.length, hlen, ?_, rfl⟩
  intro i a ha
  obtain ⟨call, output, h1, h2, -, h4⟩ := h.crossed i a (hfire ha) ha
  obtain ⟨p, hp, hid⟩ := hids.mem_range ha
  refine ⟨call, output, h1, h2, ?_⟩
  rw [hid, Int.toNat_natCast, hget p hp, ← hid]
  exact h4 (harrive ha)

omit [Scalar α] in
/-- The failure of a round, once its moves are made. -/
private theorem ends_raise {failure : Option Failure} {s : Session α}
    {Q : Unit → Session α → Prop} {E : Failure → Session α → Prop}
    (hQ : failure = none → Q () s) (hE : failure.isSome → ∀ e, E e s) :
    (raise failure : Step α Unit).Ends s Q E := by
  cases failure with
  | none => exact hQ rfl
  | some e => exact hE rfl e

/-- All moves of a round, by any number of workers, once the barrier is open. -/
theorem fireAll_ends (hids : OnePerPartition s₀.assigners)
    (hb : s₀.barrier = some ⟨s₀.assigners.length, some epoch, []⟩) (pool : Option Nat) :
    (fireAll plan epoch centroids pool).Ends s₀
      (fun _ s' => ∃ moves made arrived, Move.Fits moves s₀.assigners.length ∧
        Midway plan epoch centroids s₀ moves made arrived s')
      (fun _ s' => s₀.SameElse s' ∧
        (pool = none ∨ plan.execution.timeout = .null →
          SomeCrossingFails plan epoch centroids s₀)) := by
  cases pool with
  | none =>
    simp only [fireAll, fireInTurn, Step.ends_bind, Step.ends_get]
    refine (makeMoves_ends hids hb _ (Move.fits_inTurn _)).mono (fun failure s' h => ?_)
      fun _ _ h => h.elim
    apply ends_raise
    · intro hnone
      rcases h with ⟨-, made, arrived, hmid⟩ | h
      · exact ⟨_, made, arrived, Move.fits_inTurn _, hmid⟩
      · rw [hnone] at h; cases h.1
    · intro hsome e
      rcases h with h | h
      · rw [h.1] at hsome; cases hsome
      · exact ⟨h.2.1, fun _ => h.2.2⟩
  | some workers =>
    -- a pool may come in any order, and may be cut off although every partition has passed
    have hfits := plan.execution.schedule.fits epoch s₀.assigners.length
    simp only [fireAll, fireInPool, Step.ends_bind, Step.ends_get]
    refine (makeMoves_ends hids hb _ hfits).mono (fun failure s' h => ?_) fun _ _ h => h.elim
    have hsame : s₀.SameElse s' := by
      rcases h with ⟨-, _, _, hmid⟩ | h
      · exact hmid.same
      · exact h.2.1
    apply Step.ends_ofOutcome_of
    · intro cut hcut
      cases cut with
      | true =>
        refine ⟨hsame, fun hnull => ?_⟩
        rw [hnull.resolve_left (by simp)] at hcut
        cases hcut
      | false =>
        apply ends_raise
        · intro hnone
          rcases h with ⟨-, made, arrived, hmid⟩ | h
          · exact ⟨_, made, arrived, hfits, hmid⟩
          · rw [hnone] at h; cases h.1
        · intro hsome e
          rcases h with h | h
          · rw [h.1] at hsome; cases hsome
          · exact ⟨h.2.1, fun _ => h.2.2⟩
    · intro e he
      refine ⟨hsame, fun hnull => ?_⟩
      rw [hnull.resolve_left (by simp)] at he
      cases he

/-- The boundary of a round in all partitions, with any number of workers: it is passed everywhere,
    or it fails in one of the partitions, or the round takes too long. -/
theorem firePartitions_ends {stale : List (Int × PartitionOutput α)}
    (hids : OnePerPartition s.assigners)
    (hb : s.barrier = some ⟨s.assigners.length, none, stale⟩) :
    (firePartitions plan epoch centroids).Ends s
      (fun outputs s' => AllCrossed plan epoch centroids s outputs s')
      (fun _ s' => s.SameElse s' ∧
        (s.pool = none ∨ plan.execution.timeout = .null →
          SomeCrossingFails plan epoch centroids s)) := by
  -- the barrier is opened for the round, which nothing else sees
  have hso : s.SameElse { s with barrier := some ⟨s.assigners.length, some epoch, []⟩ } :=
    .of_eq _ _ _
  have hopen : OnePerPartition
      ({ s with barrier := some ⟨s.assigners.length, some epoch, []⟩ } : Session α).assigners := hids
  simp only [firePartitions, openBarrier, Step.ends_bind, Step.ends_get, hb, Barrier.openFor,
    Step.ends_ofOutcome_ok, Step.ends_set]
  refine (fireAll_ends hopen rfl s.pool).mono (fun _ s' h => ?_) fun _ _ h => ⟨hso.trans h.1, h.2⟩
  obtain ⟨moves, made, arrived, hfits, hmid⟩ := h
  obtain ⟨outputs, hwait, hall⟩ := hmid.wait hopen hfits
  simp only [closeBarrier, Step.ends_get, hmid.barrier, hwait, Step.ends_bind,
    Step.ends_ofOutcome_ok, Step.ends_set, Step.ends_pure]
  exact ⟨hso.trans hall.same, hall.length, hall.outputs_length, hall.crossed, hall.barrier⟩

end Outputs

end Iteration
end ClusterRounds
