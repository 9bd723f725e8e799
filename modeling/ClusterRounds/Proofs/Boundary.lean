/-
  ClusterRounds.Proofs.Boundary

  One partition at the boundary of a round. `Assigner.Stands` says what an operator is
  between two rounds: whose points it holds, which centroid sets wait for the boundary,
  and which boundaries are behind it. The form in which it holds the points does not
  matter (in pieces, as one array, or not at all if there are none), so an operator
  that was restored from a snapshot stands where the one stood that the snapshot was
  taken of, and passing the boundary comes to the same for both: to `contribution`,
  which is a function of the points and the centroids alone.
-/

import ClusterRounds.Iteration.Round
import ClusterRounds.Proofs.Outcome
import ClusterRounds.Proofs.Tensor

namespace ClusterRounds

variable {α : Type}

/-! ## Points that no round can tell apart -/

/-- The same points, or no points on both sides. -/
def Tensor.SamePoints (p q : Tensor α) : Prop :=
  q = p ∨ (q.rowCount = .ok 0 ∧ p.rowCount = .ok 0)

/-- Points that can be labelled with these centroids: of their width, if there are any. -/
def Tensor.Suits (p centroids : Tensor α) : Prop :=
  p.rowCount = .ok 0 ∨ p.innerShape = centroids.innerShape

namespace Tensor

theorem SamePoints.refl (p : Tensor α) : p.SamePoints p := .inl rfl

theorem entries_eq_nil_of_rowCount {q : Tensor α} (hq : q.rank = 2) (h : q.rowCount = .ok 0) :
    q.entries = [] := by
  obtain ⟨n, w, hs⟩ := exists_shape_of_rank_two hq
  rw [rowCount_of_shape hs, Except.ok.injEq] at h
  apply List.eq_nil_of_length_eq_zero
  rw [length_entries_of_shape hs, h, Nat.zero_mul]

end Tensor

/-- Points without rows have no labels, and the measure is not asked. -/
theorem Measure.nearest_of_no_rows [Scalar α] (m : Measure α) (call : Nat) {q : Tensor α}
    (centroids : Tensor α) (h : q.rowCount = .ok 0) : m.nearest call q centroids = .ok [] := by
  unfold Measure.nearest
  rw [h]
  rfl

theorem Measure.nearest_of_samePoints [Scalar α] (m : Measure α) (call : Nat) {p q : Tensor α}
    (centroids : Tensor α) (h : p.SamePoints q) :
    m.nearest call q centroids = m.nearest call p centroids := by
  rcases h with rfl | ⟨hq, hp⟩
  · rfl
  · rw [nearest_of_no_rows m call centroids hq, nearest_of_no_rows m call centroids hp]

namespace Iteration

variable [Scalar α]

/-! ## What a partition contributes to a round -/

/-- What points bring to the barrier: nothing of the operator that holds them matters. -/
def contribution (m : Measure α) (k : Nat) (centroids : Tensor α) (call : Nat)
    (points : Tensor α) : Outcome (PartitionOutput α) := do
  let labels ← m.nearest call points centroids
  output k centroids ⟨0, labels.map fun (l : Nat) => (l : Int), points⟩

/-- What an operator brings to the barrier when it passes the boundary of a round. -/
def crossing (m : Measure α) (k : Nat) (centroids : Tensor α) (call : Nat) (epoch : Int)
    (a : Assigner α) : Outcome (PartitionOutput α) := do
  output k centroids (← (a.fire m call epoch).answer)

theorem output_of_no_labels (k : Nat) (centroids : Tensor α) (epoch : Int) (points : Tensor α) :
    output k centroids ⟨epoch, [], points⟩ = .ok ⟨[], 0, []⟩ := rfl

/-- The round's number only shows in the failure. -/
theorem output_toOption (k : Nat) (centroids : Tensor α) (epoch : Int) (labels : List Int)
    (points : Tensor α) :
    (output k centroids ⟨epoch, labels, points⟩).toOption
      = (output k centroids ⟨0, labels, points⟩).toOption := by
  by_cases hr : labels.isEmpty || Aggregate.inRange k labels
  · have h : Aggregate.accumulate ⟨epoch, labels, points⟩ (k : Int)
        = Aggregate.accumulate ⟨0, labels, points⟩ (k : Int) := by
      unfold Aggregate.accumulate
      rcases Bool.or_eq_true_iff.1 hr with he | hi
      · simp [he]
      · simp [hi]
    simp only [output, h]
  · simp only [Bool.or_eq_true, not_or, Bool.not_eq_true] at hr
    simp [output, Aggregate.accumulate, hr.1, hr.2, bind, Except.bind, throw, throwThe,
      MonadExceptOf.throw, Except.toOption]

end Iteration

namespace Assigner

/-! ## Holding points -/

/-- The operator as it is when its points have been read as one array. -/
def holding (a : Assigner α) (q : Tensor α) : Assigner α :=
  { a with joined := some q, chunks := if q.entries.isEmpty then [] else [q] }

/-- The operator holds these points: in the piece in which they came, as one array, or not at all
    if there are no rows. -/
inductive Keeps (a : Assigner α) (p : Tensor α) : Prop
  | piece (joined : a.joined = none) (chunks : a.chunks = [p])
  | nothing (joined : a.joined = none) (chunks : a.chunks = []) (empty : p.rowCount = .ok 0)
  | array (q : Tensor α) (same : p.SamePoints q) (rank : q.rank = 2) (joined : a.joined = some q)
      (chunks : a.chunks = if q.entries.isEmpty then [] else [q])

theorem Keeps.congr {a b : Assigner α} {p : Tensor α} (h : a.Keeps p)
    (hj : b.joined = a.joined) (hc : b.chunks = a.chunks) : b.Keeps p := by
  cases h with
  | piece joined chunks => exact .piece (hj.trans joined) (hc.trans chunks)
  | nothing joined chunks empty => exact .nothing (hj.trans joined) (hc.trans chunks) empty
  | array q same rank joined chunks => exact .array q same rank (hj.trans joined) (hc.trans chunks)

theorem keeps_holding (a : Assigner α) {p q : Tensor α} (same : p.SamePoints q)
    (rank : q.rank = 2) : (a.holding q).Keeps p := .array q same rank rfl rfl

/-- Whatever the form, reading gives one array with the same points. -/
theorem Keeps.readPoints {a : Assigner α} {p : Tensor α} (h : a.Keeps p) (hp : p.rank = 2) :
    ∃ q, p.SamePoints q ∧ q.rank = 2 ∧ a.readPoints = .ok (q, a.holding q) := by
  cases h with
  | piece joined chunks =>
    obtain ⟨n, w, hs⟩ := Tensor.exists_shape_of_rank_two hp
    refine ⟨p, .refl p, hp, ?_⟩
    simp [Assigner.readPoints, joined, chunks, Tensor.stack_singleton hs, holding, bind, Except.bind,
      pure, Except.pure]
  | nothing joined chunks empty =>
    refine ⟨Tensor.noPoints, .inr ⟨rfl, empty⟩, rfl, ?_⟩
    simp [Assigner.readPoints, joined, chunks, holding, bind, Except.bind, pure, Except.pure]
  | array q same rank joined chunks =>
    refine ⟨q, same, rank, ?_⟩
    have : a.holding q = a := by rw [holding, ← joined, ← chunks]
    simp [Assigner.readPoints, joined, this]

/-! ## Between two rounds -/

/-- Where an operator stands before the boundary of a round: it holds the points of its partition
    and these centroid sets, and all boundaries it has passed are earlier ones. -/
structure Stands (a : Assigner α) (id : Int) (p : Tensor α) (sets : List (Tensor α))
    (epoch : Int) : Prop where
  id_eq : a.id = id
  phase_eq : a.phase = .accumulating
  keeps : a.Keeps p
  pending_eq : a.pending = sets
  before : ∀ last, a.lastEpoch = some last → last < epoch

variable {a : Assigner α} {id epoch : Int} {p centroids : Tensor α} {sets : List (Tensor α)}

theorem checkAlive_of_ne (delivery : Delivery) (h : a.phase ≠ .terminated) :
    a.checkAlive delivery = .ok () := by
  unfold checkAlive
  rw [if_neg h]

theorem Stands.checkAlive (h : a.Stands id p sets epoch) (delivery : Delivery) :
    a.checkAlive delivery = .ok () := by
  apply checkAlive_of_ne
  rw [h.phase_eq]
  decide

/-- A new operator that was given its points. -/
theorem addPoints_fresh (id epoch : Int) (hp : p.rank = 2) :
    ∃ a, (fresh id : Assigner α).addPoints p = .ok a ∧ a.Stands id p [] epoch := by
  obtain ⟨n, w, hs⟩ := Tensor.exists_shape_of_rank_two hp
  refine ⟨{ fresh id with chunks := [p], joined := none }, ?_, rfl, rfl, .piece rfl rfl, rfl, ?_⟩
  · unfold addPoints
    rw [checkAlive_of_ne _ (by simp [fresh]), Tensor.atLeastMatrix_of_shape hs]
    rfl
  · intro last h
    simp [fresh] at h

theorem Stands.receive (h : a.Stands id p sets epoch) (centroids : Tensor α) :
    ∃ a', a.receive centroids = .ok a' ∧ a'.Stands id p (sets ++ [centroids]) epoch := by
  refine ⟨{ a with pending := a.pending ++ [centroids] }, ?_, h.id_eq, h.phase_eq,
    h.keeps.congr rfl rfl, ?_, h.before⟩
  · unfold Assigner.receive
    rw [h.checkAlive]
    rfl
  · simp [h.pending_eq]

theorem Stands.soleSet (h : a.Stands id p [centroids] epoch) :
    a.soleSet epoch = .ok centroids := by
  unfold Assigner.soleSet
  rw [h.checkAlive, h.pending_eq]
  cases hl : a.lastEpoch with
  | none => rfl
  | some last =>
    have : ¬ epoch ≤ last := Int.not_le.2 (h.before last hl)
    simp [this, bind, Except.bind, pure, Except.pure]

theorem checkWidths_of_suits {q : Tensor α} (hq : q.rank = 2) (hc : centroids.rank = 2)
    (same : p.SamePoints q) (suits : p.Suits centroids) (id : Int) :
    checkWidths id q centroids = .ok () := by
  obtain ⟨n, w, hqs⟩ := Tensor.exists_shape_of_rank_two hq
  obtain ⟨k, d, hcs⟩ := Tensor.exists_shape_of_rank_two hc
  unfold checkWidths
  by_cases he : q.entries.isEmpty
  · rw [if_pos he]
    rfl
  · rw [if_neg he]
    have hn : q.rowCount ≠ .ok 0 := by
      intro h
      rw [Tensor.entries_eq_nil_of_rowCount hq h] at he
      exact he rfl
    have hw : w = d := by
      rcases same with rfl | ⟨h, _⟩
      · rcases suits with h | h
        · exact absurd h hn
        · rw [Tensor.innerShape_of_shape hqs, Tensor.innerShape_of_shape hcs] at h
          exact (List.cons.inj h).1
      · exact absurd h hn
    simp [Tensor.width_of_shape hqs, Tensor.width_of_shape hcs, hw, bind, Except.bind, pure,
      Except.pure]

section Fire

variable [Scalar α] (m : Measure α) (calls : Nat)

/-- Passing the boundary: the points are labelled with the set that was waiting, and the operator
    stands before the next round. It only fails if the measure does. -/
theorem Stands.fire (h : a.Stands id p [centroids] epoch) (hp : p.rank = 2)
    (hc : centroids.rank = 2) (suits : p.Suits centroids) :
    ∃ call q, p.SamePoints q ∧
      match m.nearest call q centroids with
      | .error e => (a.fire m calls epoch).answer = .error e
      | .ok labels =>
        (a.fire m calls epoch).answer = .ok ⟨epoch, labels.map fun (l : Nat) => (l : Int), q⟩ ∧
        (a.fire m calls epoch).assigner.Stands id p [] (epoch + 1) := by
  have hread : ({ a with phase := .firing } : Assigner α).Keeps p := h.keeps.congr rfl rfl
  obtain ⟨q, same, hq, hread⟩ := hread.readPoints hp
  refine ⟨if q.rowTotal = 0 then calls else calls + 1, q, same, ?_⟩
  unfold Assigner.fire
  simp only [h.soleSet, hread, checkWidths_of_suits hq hc same suits]
  cases m.nearest (if q.rowTotal = 0 then calls else calls + 1) q centroids with
  | error e => rfl
  | ok labels =>
    refine ⟨rfl, h.id_eq, rfl, (keeps_holding a same hq).congr rfl rfl, rfl, ?_⟩
    intro last hlast
    simp only [Option.some.injEq] at hlast
    omega

/-- What the operator brings to the barrier is the contribution of its points. -/
theorem Stands.crossing (h : a.Stands id p [centroids] epoch) (hp : p.rank = 2)
    (hc : centroids.rank = 2) (suits : p.Suits centroids) (k : Nat) :
    ∃ call, (Iteration.crossing m k centroids calls epoch a).toOption
        = (Iteration.contribution m k centroids call p).toOption ∧
      ∀ o, Iteration.crossing m k centroids calls epoch a = .ok o →
        (a.fire m calls epoch).assigner.Stands id p [] (epoch + 1) := by
  obtain ⟨call, q, same, hfire⟩ := h.fire m calls hp hc suits
  refine ⟨call, ?_⟩
  unfold Iteration.crossing Iteration.contribution
  rw [← m.nearest_of_samePoints call centroids same]
  cases hn : m.nearest call q centroids with
  | error e =>
    rw [hn] at hfire
    simp only at hfire
    rw [hfire]
    exact ⟨rfl, fun o ho => nomatch ho⟩
  | ok labels =>
    rw [hn] at hfire
    simp only at hfire
    rw [hfire.1]
    refine ⟨?_, fun _ _ => hfire.2⟩
    show (Iteration.output k centroids ⟨epoch, _, q⟩).toOption = _
    rw [Iteration.output_toOption]
    rcases same with rfl | ⟨h0, h0'⟩
    · rfl
    · rw [m.nearest_of_no_rows call centroids h0, Except.ok.injEq] at hn
      subst hn
      rfl

/-- An operator that has brought something to the barrier has passed the boundary of the round. -/
theorem lastEpoch_of_crossing {k : Nat} {o : PartitionOutput α}
    (h : Iteration.crossing m k centroids calls epoch a = .ok o) :
    (a.fire m calls epoch).assigner.lastEpoch = some epoch := by
  obtain ⟨assignment, hanswer, -⟩ := bind_eq_ok.1 h
  unfold fire at hanswer ⊢
  split at hanswer
  · cases hanswer
  · dsimp only at hanswer ⊢
    split at hanswer
    · cases hanswer
    · split at hanswer
      · cases hanswer
      · split at hanswer
        · cases hanswer
        · rfl

end Fire

/-! ## Snapshots -/

/-- A snapshot of an operator that stands between two rounds holds all that makes it stand there,
    and leaves it there. -/
theorem Stands.snapshot (h : a.Stands id p sets epoch) (hp : p.rank = 2) :
    ∃ q, p.SamePoints q ∧ q.rank = 2 ∧
      a.snapshot = .ok (⟨id, some q, sets, a.lastEpoch, .known .accumulating⟩, a.holding q) ∧
      (a.holding q).Stands id p sets epoch := by
  obtain ⟨q, same, hq, hread⟩ := h.keeps.readPoints hp
  refine ⟨q, same, hq, ?_, h.id_eq, h.phase_eq, keeps_holding a same hq, h.pending_eq, h.before⟩
  unfold Assigner.snapshot
  rw [hread]
  show Except.ok _ = _
  simp only [holding, h.id_eq, h.phase_eq, h.pending_eq]

/-- A new operator that takes up a stored state stands where the state was stored. -/
theorem restore_fresh {stored : PartitionSnapshot α} {q : Tensor α} (hid : stored.id = id)
    (hpoints : stored.points = some q) (hq : q.rank = 2) (same : p.SamePoints q)
    (hempty : q.entries = [] → p.rowCount = .ok 0)
    (hphase : stored.phase = .known .accumulating) (hsets : stored.pending = sets)
    (hbefore : ∀ last, stored.lastEpoch = some last → last < epoch) :
    ∃ a, (fresh id).restore stored = (.ok (), a) ∧ a.Stands id p sets epoch := by
  have hok : (fresh id : Assigner α).acceptable stored = .ok q := by
    simp [acceptable, fresh, hid, hphase, hpoints, hq, pure, Except.pure]
  refine ⟨⟨id, .accumulating, if q.entries.isEmpty then [] else [q], none, stored.pending,
    stored.lastEpoch⟩, ?_, rfl, rfl, ?_, hsets, hbefore⟩
  · unfold restore
    rw [hok, hphase]
    rfl
  · by_cases he : q.entries.isEmpty
    · exact .nothing rfl (by simp [he]) (hempty (by simpa using he))
    · have : q = p := by
        rcases same with h | ⟨h, _⟩
        · exact h
        · rw [Tensor.entries_eq_nil_of_rowCount hq h] at he
          exact absurd rfl he
      subst this
      exact .piece rfl (if_neg he)

end Assigner
end ClusterRounds
