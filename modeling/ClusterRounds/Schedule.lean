/-
  ClusterRounds.Schedule

  The order in which the workers of a round come. Each partition makes two moves: it
  passes its boundary, and later what it made arrives at the barrier. Nothing else is
  settled: the moves of different partitions may come in any order, and `Fits` says
  just that. A `Schedule` is such an order for every round.
-/

namespace ClusterRounds

/-- One step of a worker in a round: the partition at a place passes its boundary, or what it made
    of its points arrives at the barrier. -/
inductive Move where
  | fire (place : Nat)
  | arrive (place : Nat)
deriving DecidableEq, Repr

namespace Move

def place : Move → Nat
  | fire i | arrive i => i

/-- The partition whose output arrives by a move, if one does. -/
def arrival? : Move → Option Nat
  | fire _ => none
  | arrive i => some i

/-- One partition after the other, each arriving before the next one passes its boundary. -/
def inTurn (partitions : Nat) : List Move :=
  (List.range partitions).flatMap fun i => [fire i, arrive i]

/-- Every partition makes its two moves once, in this order. -/
structure Fits (moves : List Move) (partitions : Nat) : Prop where
  once : moves.Perm (inTurn partitions)
  later : ∀ i < partitions, [fire i, arrive i].Sublist moves

/-! ## In turn -/

theorem inTurn_succ (n : Nat) : inTurn (n + 1) = inTurn n ++ [fire n, arrive n] := by
  simp [inTurn, List.range_succ]

theorem mem_inTurn {n : Nat} {m : Move} : m ∈ inTurn n ↔ m.place < n := by
  cases m <;> simp [inTurn, place]

theorem nodup_inTurn (n : Nat) : (inTurn n).Nodup := by
  induction n with
  | zero => simp [inTurn]
  | succ n ih =>
    rw [inTurn_succ, List.nodup_append]
    refine ⟨ih, by simp, ?_⟩
    intro m hm m' hm' h
    subst h
    have := mem_inTurn.1 hm
    simp only [List.mem_cons, List.not_mem_nil, or_false] at hm'
    rcases hm' with rfl | rfl <;> simp [place] at this

theorem fits_inTurn (n : Nat) : Fits (inTurn n) n where
  once := .refl _
  later i hi := by
    induction n with
    | zero => exact absurd hi (Nat.not_lt_zero i)
    | succ n ih =>
      rw [inTurn_succ]
      rcases Nat.lt_succ_iff_lt_or_eq.1 hi with h | rfl
      · exact (ih h).trans (List.sublist_append_left _ _)
      · exact List.sublist_append_right _ _

theorem arrivals_inTurn (n : Nat) : (inTurn n).filterMap arrival? = List.range n := by
  induction n with
  | zero => rfl
  | succ n ih =>
    rw [inTurn_succ, List.filterMap_append, ih, List.range_succ]
    rfl

/-! ## Orders that fit -/

namespace Fits

variable {moves : List Move} {n : Nat}

theorem mem (h : Fits moves n) {m : Move} : m ∈ moves ↔ m.place < n := by
  rw [h.once.mem_iff, mem_inTurn]

theorem nodup (h : Fits moves n) : moves.Nodup := h.once.nodup_iff.2 (nodup_inTurn n)

/-- Every partition's output arrives. -/
theorem arrivals (h : Fits moves n) : (moves.filterMap arrival?).Perm (List.range n) :=
  arrivals_inTurn n ▸ h.once.filterMap arrival?

/-- A partition has passed its boundary when its output arrives. -/
theorem fire_mem_of_arrive {done rest : List Move} {i : Nat}
    (h : Fits (done ++ arrive i :: rest) n) : fire i ∈ done := by
  have hi : i < n := h.mem.1 (by simp : arrive i ∈ _)
  have hnew : arrive i ∉ rest := by
    have := (List.nodup_append.1 h.nodup).2.1
    exact (List.nodup_cons.1 this).1
  obtain ⟨l₁, l₂, heq, h₁, h₂⟩ := List.sublist_append_iff.1 (h.later i hi)
  match l₁, heq with
  | [], heq =>
    -- both moves would come after the arrival, so the arrival would come twice
    have heq : l₂ = [fire i, arrive i] := heq.symm
    subst heq
    rcases List.sublist_cons_iff.1 h₂ with h' | ⟨r, hr, _⟩
    · exact absurd (h'.subset (by simp)) hnew
    · simp at hr
  | m :: l₁, heq =>
    have : m = fire i := by simpa using (List.cons.inj heq).1.symm
    subst this
    exact h₁.subset (by simp)

end Fits

end Move

/-- An order of the moves for every round of any number of partitions. -/
structure Schedule where
  moves : Int → Nat → List Move
  fits : ∀ epoch partitions, Move.Fits (moves epoch partitions) partitions

/-- One partition after the other, in every round. -/
def Schedule.inTurn : Schedule := ⟨fun _ n => Move.inTurn n, fun _ n => Move.fits_inTurn n⟩

end ClusterRounds
