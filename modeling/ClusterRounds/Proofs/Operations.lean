/-
  ClusterRounds.Proofs.Operations

  One partition's operator under everything that can be asked of it, its end and the
  snapshots that it takes up included. After each operation it shows its phase, how many
  points and centroid sets it holds, and the last boundary behind it; of arrays of points
  only the rows are told, since the shape of one without rows depends on who has asked for
  it before. The lemmas say in one place what a boundary makes of an operator (`fire_eq`)
  and which snapshots an operator takes up (`acceptable_eq_ok`).
-/

import ClusterRounds.Proofs.AssignerHistory

namespace ClusterRounds
namespace Assigner

variable {α : Type}

/-! ## Operations -/

/-- What can be asked of an operator. -/
inductive Operation (α : Type) where
  | addPoints (points : Tensor α)
  | receive (centroids : Tensor α)
  | boundary (epoch : Int)
  | readPoints
  | snapshot
  | restore (stored : PartitionSnapshot α)
  | terminate

/-- What an operation answers. -/
inductive Reply (α : Type) where
  | taken
  | points (rows : List (List α))
  | labelled (epoch : Int) (labels : List Int) (rows : List (List α))
  | stored (id : Int) (rows : Option (List (List α))) (sets : List (Tensor α))
      (lastEpoch : Option Int) (phase : PhaseLabel)

def Reply.ofAssignment (out : Assignment α) : Reply α :=
  .labelled out.epoch out.labels out.points.rowLists

def Reply.ofSnapshot (z : PartitionSnapshot α) : Reply α :=
  .stored z.id (z.points.map Tensor.rowLists) z.pending z.lastEpoch z.phase

/-- What an operator shows of itself. -/
structure Sight where
  phase : Phase
  points : Nat
  sets : Nat
  lastEpoch : Option Int
deriving DecidableEq, Repr

def sight (a : Assigner α) : Sight := ⟨a.phase, a.pointCount, a.pending.length, a.lastEpoch⟩

/-- An operator, and how often its measure has been asked. -/
structure Metered (α : Type) where
  operator : Assigner α
  asked : Nat

/-- The operator behind a computation that leaves no trace if it fails. -/
def Metered.take (a : Metered α) :
    Outcome (Reply α × Assigner α) → Outcome (Reply α) × Metered α
  | .ok (reply, operator) => (.ok reply, { a with operator })
  | .error e => (.error e, a)

/-- The answer to an operation, and the operator afterwards. -/
def perform [Scalar α] (m : Measure α) (a : Metered α) :
    Operation α → Outcome (Reply α) × Metered α
  | .addPoints points => a.take ((a.operator.addPoints points).map (.taken, ·))
  | .receive centroids => a.take ((a.operator.receive centroids).map (.taken, ·))
  | .boundary epoch =>
    let fired := a.operator.fire m a.asked epoch
    (fired.answer.map .ofAssignment, ⟨fired.assigner, fired.calls⟩)
  | .readPoints => a.take (a.operator.readPoints.map fun (q, b) => (.points q.rowLists, b))
  | .snapshot => a.take (a.operator.snapshot.map fun (z, b) => (.ofSnapshot z, b))
  | .restore stored =>
    let (done, operator) := a.operator.restore stored
    (done.map fun _ => .taken, { a with operator })
  | .terminate => (.ok .taken, { a with operator := a.operator.terminate })

/-- All that an operation lets see: its answer, and what the operator shows afterwards. -/
def operate [Scalar α] (m : Measure α) (a : Metered α) (op : Operation α) :
    (Outcome (Reply α) × Sight) × Metered α :=
  let (answer, b) := perform m a op
  ((answer, b.operator.sight), b)

/-- Points are of one width, those that a snapshot brings included, unless there are none. -/
def Operation.Fits (width : Nat) : Operation α → Prop
  | .addPoints points => ∃ n, points.atLeastMatrix.shape = [n, width]
  | .restore stored => ∀ q n w, stored.points = some q → q.shape = [n, w] → n = 0 ∨ w = width
  | _ => True

/-- A snapshot is taken up. -/
def Operation.Restores : Operation α → Prop
  | .restore _ => True
  | _ => False

/-! ## Operations in one line -/

section Equations

variable (a : Assigner α)

theorem addPoints_eq (points : Tensor α) :
    a.addPoints points = (a.checkAlive .points).map fun _ =>
      { a with chunks := a.chunks ++ [points.atLeastMatrix], joined := none } := by
  unfold addPoints
  cases a.checkAlive .points <;> rfl

theorem receive_eq (centroids : Tensor α) :
    a.receive centroids = (a.checkAlive .centroids).map fun _ =>
      { a with pending := a.pending ++ [centroids] } := by
  unfold receive
  cases a.checkAlive .centroids <;> rfl

theorem snapshot_eq : a.snapshot = a.readPoints.map fun (q, b) =>
    (⟨b.id, some q, b.pending, b.lastEpoch, .known b.phase⟩, b) := by
  unfold snapshot
  cases a.readPoints <;> rfl

end Equations

/-! ## What a boundary makes of an operator -/

/-- Reading the points of an operator changes nothing but the form in which it holds them. -/
theorem readPoints_same {a b : Assigner α} {q : Tensor α} (h : a.readPoints = .ok (q, b)) :
    b.id = a.id ∧ b.phase = a.phase ∧ b.pending = a.pending ∧ b.lastEpoch = a.lastEpoch := by
  unfold readPoints at h
  split at h
  · cases h
    exact ⟨rfl, rfl, rfl, rfl⟩
  · dsimp only at h
    split at h
    all_goals
      obtain ⟨_, -, hread⟩ := bind_eq_ok.1 h
      cases hread
      exact ⟨rfl, rfl, rfl, rfl⟩

/-- A boundary is refused by an operator that is at its end, if it is not later than the last one
    behind it, or if not exactly one set waits for it. -/
def Refuses (a : Assigner α) (epoch : Int) : Prop :=
  a.phase = .terminated ∨ (∃ last, a.lastEpoch = some last ∧ epoch ≤ last) ∨ a.pending.length ≠ 1

/-- Any other boundary is begun with the one set that waits. -/
theorem soleSet_eq_ok {a : Assigner α} {epoch : Int} {set : Tensor α} :
    a.soleSet epoch = .ok set ↔ ¬ a.Refuses epoch ∧ a.pending = [set] := by
  by_cases hend : a.phase = .terminated
  · rw [soleSet, checkAlive, if_pos hend]
    refine iff_of_false (fun h => ?_) fun h => h.1 (.inl hend)
    cases h
  · rcases soleSet_cases hend epoch with ⟨c, hsole, hpending, hearlier⟩ | ⟨⟨fault, hfault⟩, hwhy⟩
    · have hbegun : ¬ a.Refuses epoch := by
        rintro (h | ⟨last, hlast, hle⟩ | hcount)
        · exact hend h
        · exact absurd hle (Int.not_le.2 (hearlier last hlast))
        · exact hcount (by rw [hpending]; rfl)
      rw [hsole, hpending, Except.ok.injEq, List.cons.injEq]
      exact ⟨fun h => ⟨hbegun, h, rfl⟩, fun h => h.2.1⟩
    · rw [hfault]
      refine iff_of_false (fun h => ?_) fun h => h.1 (.inr hwhy)
      cases h

theorem soleSet_cases_of_refuses (a : Assigner α) (epoch : Int) :
    (a.Refuses epoch ∧ ∃ e, a.soleSet epoch = .error e) ∨
      (¬ a.Refuses epoch ∧ ∃ set, a.soleSet epoch = .ok set ∧ a.pending = [set]) := by
  by_cases hrefuses : a.Refuses epoch
  · refine .inl ⟨hrefuses, ?_⟩
    cases hsole : a.soleSet epoch with
    | error e => exact ⟨e, rfl⟩
    | ok set => exact absurd hrefuses (soleSet_eq_ok.1 hsole).1
  · have hcount : a.pending.length = 1 := not_not.1 fun h => hrefuses (.inr (.inr h))
    obtain ⟨set, hset⟩ := List.length_eq_one_iff.1 hcount
    exact .inr ⟨hrefuses, set, soleSet_eq_ok.2 ⟨hrefuses, hset⟩, hset⟩

section Boundary

variable [Scalar α] (m : Measure α) (calls : Nat) {a : Assigner α} {epoch : Int}

/-- The labels of points at a boundary, by the set that waits for it. -/
def labelling (id : Int) (points set : Tensor α) : Outcome (List Nat) := do
  checkWidths id points set
  m.nearest (if points.rowTotal = 0 then calls else calls + 1) points set

/-- A boundary that cannot be passed leaves the operator as it was. -/
theorem fire_of_soleSet_error {e : Failure} (h : a.soleSet epoch = .error e) :
    a.fire m calls epoch = ⟨.error e, a, calls⟩ := by
  unfold fire
  rw [h]

/-- A boundary fails too if the points cannot be read. -/
theorem fire_of_readPoints_error {set : Tensor α} {e : Failure} (hsole : a.soleSet epoch = .ok set)
    (hread : ({ a with phase := .firing } : Assigner α).readPoints = .error e) :
    a.fire m calls epoch = ⟨.error e, { a with phase := .firing }, calls⟩ := by
  unfold fire
  simp only [hsole, hread]

/-- Otherwise what comes of it depends on their labels alone. -/
theorem fire_eq {set q : Tensor α} {b : Assigner α} (hsole : a.soleSet epoch = .ok set)
    (hread : ({ a with phase := .firing } : Assigner α).readPoints = .ok (q, b)) :
    (a.fire m calls epoch).answer = (labelling m calls a.id q set).map
        (fun labels => ⟨epoch, labels.map fun (l : Nat) => (l : Int), q⟩) ∧
      (a.fire m calls epoch).assigner = match labelling m calls a.id q set with
        | .ok _ => { b with phase := .accumulating, pending := [], lastEpoch := epoch }
        | .error _ => b := by
  unfold fire labelling
  simp only [hsole, hread]
  cases checkWidths a.id q set with
  | error e => exact ⟨rfl, rfl⟩
  | ok _ =>
    simp only [bind, Except.bind]
    cases m.nearest (if q.rowTotal = 0 then calls else calls + 1) q set with
    | error e => exact ⟨rfl, rfl⟩
    | ok labels => exact ⟨rfl, rfl⟩

/-- At a boundary, passed or not, the operator remains that of its partition. -/
theorem fire_id (a : Assigner α) (epoch : Int) : (a.fire m calls epoch).assigner.id = a.id := by
  cases hsole : a.soleSet epoch with
  | error e => rw [fire_of_soleSet_error m calls hsole]
  | ok set =>
    cases hread : ({ a with phase := .firing } : Assigner α).readPoints with
    | error e => rw [fire_of_readPoints_error m calls hsole hread]
    | ok read =>
      rw [(fire_eq m calls hsole hread).2]
      split
      · exact (readPoints_same hread).1
      · exact (readPoints_same hread).1

/-- Whatever is asked of an operator, it remains that of its partition. -/
theorem perform_id (a : Metered α) (op : Operation α) :
    (perform m a op).2.operator.id = a.operator.id := by
  cases op with
  | addPoints points =>
    simp only [perform, addPoints_eq]
    cases a.operator.checkAlive .points <;> rfl
  | receive centroids =>
    simp only [perform, receive_eq]
    cases a.operator.checkAlive .centroids <;> rfl
  | boundary epoch => exact fire_id m a.asked a.operator epoch
  | readPoints =>
    cases hread : a.operator.readPoints with
    | error e => simp only [perform, hread]; rfl
    | ok read =>
      simp only [perform, hread]
      exact (readPoints_same hread).1
  | snapshot =>
    cases hread : a.operator.readPoints with
    | error e => simp only [perform, snapshot_eq, hread]; rfl
    | ok read =>
      simp only [perform, snapshot_eq, hread]
      exact (readPoints_same hread).1
  | restore stored =>
    simp only [perform, restore]
    cases a.operator.acceptable stored with
    | error e => rfl
    | ok q => cases stored.phase <;> rfl
  | terminate => rfl

theorem after_id (id : Int) (asked : Nat) (past : List (Operation α)) :
    (History.after (operate m) ⟨fresh id, asked⟩ past).operator.id = id :=
  History.invariant (I := fun _ (a : Metered α) => a.operator.id = id) rfl
    fun _ a op _ h => (perform_id m a op).trans h

end Boundary

/-! ## Which snapshots are taken up -/

/-- The operator holds nothing and has passed no boundary. Whether it is at its end does not
    matter. -/
structure Vacant (a : Assigner α) : Prop where
  chunks_eq : a.chunks = []
  pending_eq : a.pending = []
  lastEpoch_eq : a.lastEpoch = none

/-- The snapshot is of the partition, taken between two rounds, and holds a matrix of points. -/
structure Storable (id : Int) (stored : PartitionSnapshot α) (q : Tensor α) : Prop where
  id_eq : stored.id = id
  between : stored.phase ≠ .known .firing
  points_eq : stored.points = some q
  rank_eq : q.rank = 2

section TakingUp

variable {a : Assigner α} {stored : PartitionSnapshot α} {q : Tensor α}

theorem vacant_fresh (id : Int) : (fresh id : Assigner α).Vacant := ⟨rfl, rfl, rfl⟩

/-- An operator takes up no other snapshots, and takes them up only if it is vacant. -/
theorem acceptable_eq_ok : a.acceptable stored = .ok q ↔ a.Vacant ∧ Storable a.id stored q := by
  have hvacant : (!a.chunks.isEmpty || !a.pending.isEmpty || a.lastEpoch.isSome) = false ↔
      a.Vacant := by
    refine ⟨fun h => ?_, fun h => by simp [h.chunks_eq, h.pending_eq, h.lastEpoch_eq]⟩
    simp only [Bool.or_eq_false_iff, Bool.not_eq_false', List.isEmpty_iff,
      Option.isSome_eq_false_iff, Option.isNone_iff_eq_none] at h
    exact ⟨h.1.1, h.1.2, h.2⟩
  have hstorable : Storable a.id stored q ↔ stored.id = a.id ∧ stored.phase ≠ .known .firing ∧
      stored.points = some q ∧ q.rank = 2 :=
    ⟨fun h => ⟨h.id_eq, h.between, h.points_eq, h.rank_eq⟩, fun ⟨h, h', h'', h'''⟩ => ⟨h, h', h'', h'''⟩⟩
  rw [← hvacant, hstorable]
  unfold acceptable
  simp only [throw, throwThe, MonadExceptOf.throw, bind, Except.bind, pure, Except.pure]
  split
  · rename_i hheld
    simp [hheld]
  · rename_i hheld
    rw [Bool.not_eq_true] at hheld
    split
    · rename_i hid
      simp [hid]
    · rename_i hid
      rw [ne_eq, Decidable.not_not] at hid
      split
      · rename_i hphase
        simp [hphase]
      · rename_i hphase
        cases stored.points with
        | none => simp
        | some points =>
          by_cases hrank : points.rank = 2
          · simp only [hrank, hheld, hid, hphase, ne_eq, not_true_eq_false, not_false_eq_true, if_false,
              true_and, Except.ok.injEq, Option.some.injEq]
            exact ⟨fun h => ⟨h, h ▸ hrank⟩, And.left⟩
          · dsimp only
            rw [if_pos hrank]
            refine iff_of_false (fun h => ?_) ?_
            · cases h
            · rintro ⟨-, -, -, heq, hrank'⟩
              rw [Option.some.injEq] at heq
              exact hrank (heq ▸ hrank')

/-- What an operator is when it has taken up a snapshot. -/
def filled (a : Assigner α) (stored : PartitionSnapshot α) (q : Tensor α) (phase : Phase) :
    Assigner α :=
  ⟨a.id, phase, if q.entries.isEmpty then [] else [q], none, stored.pending, stored.lastEpoch⟩

theorem restore_of_acceptable {phase : Phase} (h : a.acceptable stored = .ok q)
    (hphase : stored.phase = .known phase) : a.restore stored = (.ok (), a.filled stored q phase) := by
  unfold restore
  rw [h, hphase]
  rfl

end TakingUp

end Assigner
end ClusterRounds
