/-
  ClusterRounds.Proofs.Scheduling

  The workers' order does not matter. Two rounds in which all partitions have passed
  their boundary agree if they began with the same operators, however the moves of the
  workers interleaved (`AllCrossed.unique`): the measure's count of calls is the only
  thing in which they can differ, and a measure without state does not look at it. For
  whole runs the same follows from what runs find.
-/

import ClusterRounds.Proofs.Resumption
import Mathlib.Data.List.Perm.Basic

namespace ClusterRounds

variable {α : Type} [Scalar α]

namespace Iteration

variable {plan : Plan α} {epoch : Int} {centroids : Tensor α} {s s' s₁ s₂ : Session α}
  {outputs outputs' : List (PartitionOutput α)}

/-- The outputs, operators and barrier of a round are settled by the operators before it. -/
theorem AllCrossed.unique (h : AllCrossed plan epoch centroids s outputs s₁)
    (h' : AllCrossed plan epoch centroids s' outputs' s₂) (hm : plan.measure.Stateless)
    (hids : OnePerPartition s.assigners) (hsame : s'.assigners = s.assigners) :
    outputs' = outputs ∧ s₂.assigners = s₁.assigners ∧ s₂.barrier = s₁.barrier := by
  -- whatever the count of calls was, a partition has done the same
  have hpartition : ∀ {i : Nat} {a : Assigner α}, s.assigners[i]? = some a →
      s₂.assigners[i]? = s₁.assigners[i]? ∧ outputs'[a.id.toNat]? = outputs[a.id.toNat]? := by
    intro i a ha
    obtain ⟨c, o, hfired, hcross, ho⟩ := h.crossed i a ha
    obtain ⟨c', o', hfired', hcross', ho'⟩ := h'.crossed i a (hsame ▸ ha)
    rw [crossing_stateless hm c' c, hcross, Except.ok.injEq] at hcross'
    exact ⟨by rw [hfired', hfired, (fire_stateless hm c' c a epoch).2], by rw [ho', ho, hcross']⟩
  have hcount : outputs'.length = outputs.length := by
    rw [h'.outputs_length, h.outputs_length, hsame]
  refine ⟨?_, ?_, ?_⟩
  · apply List.ext_getElem?
    intro p
    by_cases hp : p < s.assigners.length
    · obtain ⟨i, a, ha, hid⟩ := hids.exists_of_lt hp
      have := (hpartition ha).2
      rwa [hid, Int.toNat_natCast] at this
    · have hp₁ : outputs.length ≤ p := by rw [h.outputs_length]; exact Nat.not_lt.1 hp
      rw [List.getElem?_eq_none hp₁, List.getElem?_eq_none (hcount ▸ hp₁)]
  · apply List.ext_getElem?
    intro i
    by_cases hi : i < s.assigners.length
    · exact (hpartition (List.getElem?_eq_getElem hi)).1
    · have hi₁ : s₁.assigners.length ≤ i := by rw [h.length]; exact Nat.not_lt.1 hi
      have hi₂ : s₂.assigners.length ≤ i := by rw [h'.length, hsame]; exact Nat.not_lt.1 hi
      rw [List.getElem?_eq_none hi₁, List.getElem?_eq_none hi₂]
  · rw [h.barrier, h'.barrier, hsame]

/-- A round in which no boundary fails comes to its end if no time is set for it. -/
theorem exists_allCrossed {stale : List (Int × PartitionOutput α)} (hm : plan.measure.Stateless)
    (hids : OnePerPartition s.assigners)
    (hclosed : s.barrier = some ⟨s.assigners.length, none, stale⟩)
    (hruns : ∀ a ∈ s.assigners, ∃ o,
      crossing plan.measure plan.settings.k centroids 0 epoch a = .ok o)
    (hunlimited : s.pool = none ∨ plan.execution.timeout = .null) :
    ∃ outputs s', firePartitions plan epoch centroids s = .ok outputs s' ∧
      AllCrossed plan epoch centroids s outputs s' := by
  have hends : (firePartitions plan epoch centroids).Ends s (AllCrossed plan epoch centroids s)
      (fun _ _ => False) := by
    refine (firePartitions_ends hids hclosed).mono (fun _ _ h => h) fun e s' hfail => ?_
    obtain ⟨i, a, call, e, ha, he⟩ := hfail.2 hunlimited
    obtain ⟨o, ho⟩ := hruns a (List.mem_of_getElem? ha)
    rw [crossing_stateless hm call 0, ho] at he
    cases he
  exact hends.exists_ok fun _ _ h => h

/-- A run that returns has accepted its inputs. -/
theorem accepted_of_run {task : Task α} {a : Attempt α} {slot : Slot α} {initial : Tensor α}
    {r : RunResult α} (ha : a.plan.Serves task)
    (hrun : a.run slot task.points initial = .ok r s) :
    checkInputs task.settings task.points initial = .ok () := by
  cases hcheck : checkInputs task.settings task.points initial with
  | ok _ => rfl
  | error e =>
    have hends : (run a.plan task.points initial).Ends (a.session slot) (fun _ _ => False)
        (fun _ _ => True) := by
      simp only [run, Step.ends_bind, ha.settings_eq, hcheck, Step.ends_ofOutcome_error]
    exact (hends.of_ok hrun).elim

end Iteration

/-! ## Any order -/

open Iteration

/-- Scheduling does not influence the result. One round: if no firing fails, the firings and arrivals
    of a pool of any size, in any order, make the outputs that the serial execution makes, ordered by
    partition, and leave operators and barrier as it does; only a limit on the time can keep the
    round from its end. A whole run: what a run returns, with any number of workers, in any order and
    with any limit on the time, is what every run with the same criterion returns that has no such
    limit. -/
theorem any_order_matches_serial :
    (∀ (plan : Plan α) (s : Session α) (stale : List (Int × PartitionOutput α)) (epoch : Int)
        (centroids : Tensor α), plan.measure.Stateless → OnePerPartition s.assigners →
      s.barrier = some ⟨s.assigners.length, none, stale⟩ →
      (∀ a ∈ s.assigners, ∃ o,
        crossing plan.measure plan.settings.k centroids 0 epoch a = .ok o) →
      ∃ outputs s₁, firePartitions plan epoch centroids { s with pool := none } = .ok outputs s₁ ∧
        s₁.barrier = some ⟨s.assigners.length, none, []⟩ ∧
        (∀ a ∈ s.assigners, ∃ o,
          crossing plan.measure plan.settings.k centroids 0 epoch a = .ok o ∧
          outputs[a.id.toNat]? = some o) ∧
        (∀ outputs' s₂, firePartitions plan epoch centroids s = .ok outputs' s₂ →
          outputs' = outputs ∧ s₂.assigners = s₁.assigners ∧ s₂.barrier = s₁.barrier) ∧
        (plan.execution.timeout = .null →
          ∃ s₂, firePartitions plan epoch centroids s = .ok outputs s₂)) ∧
    (∀ (task : Task α) (initial : Tensor α) (a b : Attempt α) (slot slot' : Slot α),
      a.plan.Serves task → slot.Usable → b.plan.Serves task → b.plan.Calm task → slot'.Usable →
      b.criterion = a.criterion →
      ∀ r s, a.run slot task.points initial = .ok r s →
        ∃ r' s', b.run slot' task.points initial = .ok r' s' ∧ r'.findings = r.findings) := by
  constructor
  · intro plan s stale epoch centroids hm hids hclosed hruns
    obtain ⟨outputs, s₁, hserial, hall⟩ :=
      exists_allCrossed (s := { s with pool := none }) hm hids hclosed hruns (.inl rfl)
    have hagree : ∀ outputs' s₂, firePartitions plan epoch centroids s = .ok outputs' s₂ →
        outputs' = outputs ∧ s₂.assigners = s₁.assigners ∧ s₂.barrier = s₁.barrier := by
      intro outputs' s₂ hany
      have hall' := (firePartitions_ends hids hclosed).of_ok hany
      exact hall.unique hall' hm hids rfl
    refine ⟨outputs, s₁, hserial, hall.barrier, fun a ha => ?_, hagree, fun hnull => ?_⟩
    · obtain ⟨i, hi⟩ := List.mem_iff_getElem?.1 ha
      obtain ⟨call, o, -, hcross, ho⟩ := hall.crossed i a hi
      exact ⟨o, (crossing_stateless hm 0 call _ _ _ _).trans hcross, ho⟩
    -- without a limit the pool comes to its end as well
    · obtain ⟨outputs', s₂, hany, -⟩ := exists_allCrossed hm hids hclosed hruns (.inr hnull)
      exact ⟨s₂, (hagree outputs' s₂ hany).1 ▸ hany⟩
  · intro task initial a b slot slot' ha hslot hb hcalm hslot' hc r s hrun
    have haccepted := accepted_of_run ha hrun
    have hcourse := ((run_ends ha haccepted (Attempt.equipped ha hslot)).of_ok hrun).1
    have hends := run_ends hb haccepted (Attempt.equipped hb hslot')
    -- the two attempts ask the same criterion, so they have one course
    have hsame : task.course (b.session slot').criterion (.start initial) = .ok r.findings := by
      show task.course b.criterion _ = _
      rw [hc]
      exact hcourse
    cases hrun' : b.run slot' task.points initial with
    | ok r' s' => exact ⟨r', s', rfl, Except.ok.inj ((hends.of_ok hrun').1.symm.trans hsame)⟩
    | error e s' => exact absurd hsame ((hends.of_error hrun').2 hcalm _)

/-! ## A pool that is late -/

/-- All partitions pass their boundary before the first output arrives. -/
def Schedule.firesFirst : Schedule where
  moves _ n := (List.range n).map .fire ++ (List.range n).map .arrive
  fits _ n :=
    { once := by
        rw [List.map_eq_flatMap, List.map_eq_flatMap]
        exact List.flatMap_append_perm _ (fun i => [Move.fire i]) fun i => [Move.arrive i]
      later := fun i hi => by
        have hfire : [Move.fire i].Sublist ((List.range n).map .fire) := by simpa using hi
        have harrive : [Move.arrive i].Sublist ((List.range n).map .arrive) := by simpa using hi
        exact hfire.append harrive }

namespace Sample

/-- An attempt at the task with more workers than partitions. -/
def crowded : Attempt Rat where
  plan :=
    { settings
      execution :=
        { partitions := .int 2, workers := .int 4, chunk := none, timeout := .null
          schedule := .firesFirst }
      measure := task.measure
      period := none }
  criterion := .ofSettings settings
  calls := 0
  clock := .stepping 0

/-- A partition crosses the first boundary when its crossing is no failure. -/
theorem exists_crossed {a : Assigner Rat}
    (h : (crossing task.measure 2 initial 0 0 a).isOk = true) :
    ∃ o, crossing task.measure 2 initial 0 0 a = .ok o := by
  cases hcross : crossing task.measure 2 initial 0 0 a with
  | ok o => exact ⟨o, rfl⟩
  | error e =>
    rw [hcross] at h
    cases h

theorem crowded_undisturbed : crowded.Undisturbed task where
  settings_eq := rfl
  plan := ⟨(Measure.stateless_euclidean _).matches, rfl, 4, rfl⟩
  criterion := rfl

end Sample

/-- One worker, and a pool whose outputs all arrive late: in the first round, and in a run. -/
theorem any_order_matches_serial_sample :
    (∃ outputs s₁ s₂,
      firePartitions Sample.crowded.plan 0 Sample.initial (Sample.waiting Sample.crowded)
        = .ok outputs s₁ ∧
      firePartitions Sample.crowded.plan 0 Sample.initial
          { Sample.waiting Sample.crowded with pool := some 2 } = .ok outputs s₂ ∧
      s₂.assigners = s₁.assigners ∧ s₂.barrier = s₁.barrier) ∧
    ∃ r s r' s',
      (Sample.attempt Sample.task.measure).run Sample.place Sample.task.points Sample.initial
        = .ok r s ∧
      Sample.crowded.run Sample.place Sample.task.points Sample.initial = .ok r' s' ∧
      r'.findings = r.findings := by
  constructor
  · have hruns : ∀ a ∈ (Sample.waiting Sample.crowded).assigners, ∃ o,
        crossing Sample.task.measure 2 Sample.initial 0 0 a = .ok o := by
      intro a ha
      rcases List.mem_cons.1 ha with rfl | ha
      · exact Sample.exists_crossed (by decide +kernel)
      · rw [List.mem_singleton.1 ha]
        exact Sample.exists_crossed (by decide +kernel)
    obtain ⟨outputs, s₁, hserial, -, -, hany, hreturns⟩ :=
      any_order_matches_serial.1 Sample.crowded.plan
        { Sample.waiting Sample.crowded with pool := some 2 } [] 0 Sample.initial
        (Measure.stateless_euclidean _) (.refl _) rfl hruns
    obtain ⟨s₂, hpool⟩ := hreturns rfl
    exact ⟨outputs, s₁, s₂, hserial, hpool, (hany outputs s₂ hpool).2⟩
  · obtain ⟨r, s, hrun⟩ : ∃ r s,
        (Sample.attempt Sample.task.measure).run Sample.place Sample.task.points Sample.initial
          = .ok r s := by
      apply Sample.exists_ok
      decide +kernel
    obtain ⟨r', s', hrun', hfindings⟩ := any_order_matches_serial.2 Sample.task Sample.initial
      (Sample.attempt Sample.task.measure) Sample.crowded Sample.place Sample.place
      Sample.attempt_undisturbed.serves Sample.usable_place Sample.crowded_undisturbed.serves
      Sample.crowded_undisturbed.plan Sample.usable_place rfl r s hrun
    exact ⟨r, s, r', s', hrun, hrun', hfindings⟩

end ClusterRounds
