/-
  ClusterRounds.Proofs.Restoration

  Operators that were stored and taken up again. The one that was stored may hold its rows
  in pieces or as one array, and the one that took them up holds them as one piece, or
  nothing if there are none; so the two are not equal, but `Alike`. No later operation can
  tell operators apart that are alike, and they stay alike (`Alike.operate`), until one of
  them is asked to take up a snapshot.
-/

import ClusterRounds.Proofs.Interleaving
import ClusterRounds.Proofs.Operations

namespace ClusterRounds
namespace Assigner

variable {α : Type}

/-! ## Rows under every operation -/

namespace HoldsRows

variable {width : Nat} {a : Assigner α} {rows : List (List α)}

theorem terminate (width : Nat) (a : Assigner α) : a.terminate.HoldsRows width [] :=
  .pieces rfl (fun _ h => nomatch h) rfl

/-- The points that a snapshot brings are the one piece, or none. -/
theorem filled {stored : PartitionSnapshot α} {q : Tensor α} {n w : Nat} (hq : q.shape = [n, w])
    (hsuits : n = 0 ∨ w = width) (hwidth : 0 < width) (a : Assigner α) (phase : Phase) :
    (a.filled stored q phase).HoldsRows width q.rowLists := by
  have hlength := Tensor.length_entries_of_shape hq
  by_cases he : q.entries.isEmpty
  · -- with a coordinate, an array without entries has no rows
    have hn : n = 0 := by
      rw [List.isEmpty_iff.1 he, List.length_nil] at hlength
      rcases hsuits with hn | rfl
      · exact hn
      · exact (Nat.mul_eq_zero.1 hlength.symm).resolve_right (Nat.ne_of_gt hwidth)
    refine .pieces rfl ?_ ?_
    · simp [Assigner.filled, he]
    · rw [(Tensor.rowLists_eq_nil_iff hq).2 hn]
      simp [Assigner.filled, he]
  · have hw : w = width := by
      refine hsuits.resolve_left fun hn => he ?_
      rw [hn, Nat.zero_mul] at hlength
      rw [List.eq_nil_of_length_eq_zero hlength]
      rfl
    subst hw
    refine .pieces rfl ?_ ?_
    · simp [Assigner.filled, he, hq]
    · simp [Assigner.filled, he]

theorem pointCount (h : a.HoldsRows width rows) (hwidth : 0 < width) :
    a.pointCount = rows.length := by
  obtain ⟨shapes, hrows⟩ := h.chunks hwidth
  have hcounts : a.chunks.map Tensor.rowTotal = a.chunks.map fun t => t.rowLists.length := by
    refine List.map_congr_left fun t ht => ?_
    obtain ⟨n, hn⟩ := shapes t ht
    rw [Tensor.rowTotal_of_shape hn, Tensor.length_rowLists hn]
  rw [Assigner.pointCount, hcounts, ← List.sum_eq_foldl, ← hrows, List.length_flatMap]

section Fire

variable [Scalar α]

theorem fire (h : a.HoldsRows width rows) (m : Measure α) (calls : Nat) (epoch : Int) :
    (a.fire m calls epoch).assigner.HoldsRows width rows := by
  cases hsole : a.soleSet epoch with
  | error e =>
    rw [fire_of_soleSet_error m calls hsole]
    exact h
  | ok set =>
    have hfiring : ({ a with phase := .firing } : Assigner α).HoldsRows width rows :=
      h.congr rfl rfl
    obtain ⟨q, n, w, -, -, -, hread, hheld⟩ := hfiring.readPoints
    rw [(fire_eq m calls hsole hread).2]
    split
    · exact hheld.congr rfl rfl
    · exact hheld.congr rfl rfl

/-- Whatever is asked of an operator, it holds rows of the one width. -/
theorem perform (m : Measure α) {a : Metered α} (h : a.operator.HoldsRows width rows)
    (hwidth : 0 < width) {op : Operation α} (hop : op.Fits width) :
    ∃ rows', (perform m a op).2.operator.HoldsRows width rows' := by
  cases op with
  | addPoints points =>
    obtain ⟨n, hn⟩ := hop
    simp only [Assigner.perform, addPoints_eq]
    cases a.operator.checkAlive .points with
    | error e => exact ⟨rows, h⟩
    | ok _ => exact ⟨_, h.addPoints hwidth hn⟩
  | receive centroids =>
    simp only [Assigner.perform, receive_eq]
    cases a.operator.checkAlive .centroids with
    | error e => exact ⟨rows, h⟩
    | ok _ => exact ⟨rows, h.congr rfl rfl⟩
  | boundary epoch => exact ⟨rows, h.fire m a.asked epoch⟩
  | readPoints =>
    obtain ⟨q, n, w, -, -, -, hread, hheld⟩ := h.readPoints
    simp only [Assigner.perform, hread]
    exact ⟨rows, hheld⟩
  | snapshot =>
    obtain ⟨q, n, w, -, -, -, hread, hheld⟩ := h.readPoints
    simp only [Assigner.perform, snapshot_eq, hread]
    exact ⟨rows, hheld⟩
  | restore stored =>
    simp only [Assigner.perform, restore]
    cases hacceptable : a.operator.acceptable stored with
    | error e => exact ⟨rows, h⟩
    | ok q =>
      obtain ⟨-, hstored⟩ := acceptable_eq_ok.1 hacceptable
      obtain ⟨n, w, hq⟩ := Tensor.exists_shape_of_rank_two hstored.rank_eq
      have hfilled : ∀ phase, (a.operator.filled stored q phase).HoldsRows width q.rowLists :=
        filled hq (hop q n w hstored.points_eq hq) hwidth a.operator
      -- a phase without a meaning is an error, but the rest has been taken over by then
      cases hphase : stored.phase with
      | known phase => exact ⟨_, hfilled phase⟩
      | other _ => exact ⟨_, hfilled a.operator.phase⟩
  | terminate => exact ⟨[], terminate width _⟩

end Fire

end HoldsRows

/-! ## Operators that are alike -/

/-- The same operator, but for the form in which it holds its rows. -/
structure Alike (width : Nat) (a b : Assigner α) : Prop where
  id_eq : b.id = a.id
  phase_eq : b.phase = a.phase
  pending_eq : b.pending = a.pending
  lastEpoch_eq : b.lastEpoch = a.lastEpoch
  rows : ∃ rows, a.HoldsRows width rows ∧ b.HoldsRows width rows

namespace Alike

variable {width : Nat} {a b : Assigner α} (h : Alike width a b)

include h

theorem checkAlive (delivery : Delivery) : b.checkAlive delivery = a.checkAlive delivery := by
  rw [Assigner.checkAlive, Assigner.checkAlive, h.phase_eq, h.id_eq]

theorem soleSet (epoch : Int) : b.soleSet epoch = a.soleSet epoch := by
  unfold Assigner.soleSet
  rw [h.checkAlive, h.lastEpoch_eq, h.pending_eq, h.id_eq]

theorem sight (hwidth : 0 < width) : b.sight = a.sight := by
  obtain ⟨rows, ha, hb⟩ := h.rows
  rw [Assigner.sight, Assigner.sight, h.phase_eq, h.pending_eq, h.lastEpoch_eq,
    ha.pointCount hwidth, hb.pointCount hwidth]

/-- Read as arrays, their points are the same, or none on both sides. -/
theorem readPoints : ∃ q q', a.readPoints = .ok (q, a.holding q) ∧
    b.readPoints = .ok (q', b.holding q') ∧ q.rank = 2 ∧ q'.rank = 2 ∧ q.SamePoints q' ∧
    q'.rowLists = q.rowLists ∧ Alike width (a.holding q) (b.holding q') := by
  obtain ⟨rows, ha, hb⟩ := h.rows
  obtain ⟨q, n, w, hq, hsuits, hrows, hread, hheld⟩ := ha.readPoints
  obtain ⟨q', n', w', hq', hsuits', hrows', hread', hheld'⟩ := hb.readPoints
  refine ⟨q, q', hread, hread', Tensor.rank_of_shape hq, Tensor.rank_of_shape hq', ?_,
    hrows'.trans hrows.symm, h.id_eq, h.phase_eq, h.pending_eq, h.lastEpoch_eq, rows, hheld, hheld'⟩
  have hn : n' = n := by
    rw [← Tensor.length_rowLists hq, ← Tensor.length_rowLists hq', hrows, hrows']
  subst hn
  by_cases hn : n' = 0
  · subst hn
    exact .inr ⟨Tensor.rowCount_of_shape hq', Tensor.rowCount_of_shape hq⟩
  · obtain rfl : w = width := hsuits.resolve_left hn
    obtain rfl : w' = w := hsuits'.resolve_left hn
    rw [← Tensor.ofRowLists_rowLists hq, ← Tensor.ofRowLists_rowLists hq', hrows, hrows']
    exact .inl rfl

theorem inPhase (phase : Phase) :
    Alike width ({ a with phase } : Assigner α) ({ b with phase } : Assigner α) := by
  obtain ⟨rows, ha, hb⟩ := h.rows
  exact ⟨h.id_eq, rfl, h.pending_eq, h.lastEpoch_eq, rows, ha.congr rfl rfl, hb.congr rfl rfl⟩

end Alike

section Operations

variable [Scalar α] {m : Measure α} {width : Nat} {a b : Assigner α}

/-- Points that are the same, or none, have the same labels at every call of the measure. -/
theorem labelling_of_samePoints (hm : m.Stateless) {q q' : Tensor α} (hq : q.rank = 2)
    (hq' : q'.rank = 2) (same : q.SamePoints q') (calls calls' : Nat) (id : Int) (set : Tensor α) :
    labelling m calls' id q' set = labelling m calls id q set := by
  have hwidths : checkWidths id q' set = checkWidths id q set := by
    rcases same with rfl | ⟨hnone', hnone⟩
    · rfl
    · unfold checkWidths
      rw [Tensor.entries_eq_nil_of_rowCount hq hnone, Tensor.entries_eq_nil_of_rowCount hq' hnone']
      rfl
  rw [labelling, labelling, hwidths, m.nearest_of_samePoints _ set same,
    Iteration.nearest_stateless hm (if q'.rowTotal = 0 then calls' else calls' + 1)]

/-- A boundary comes to the same for operators that are alike, and leaves them alike. -/
theorem Alike.fire (h : Alike width a b) (hm : m.Stateless) (calls calls' : Nat) (epoch : Int) :
    (b.fire m calls' epoch).answer.map Reply.ofAssignment
        = (a.fire m calls epoch).answer.map Reply.ofAssignment ∧
      Alike width (a.fire m calls epoch).assigner (b.fire m calls' epoch).assigner := by
  cases hsole : a.soleSet epoch with
  | error e =>
    rw [fire_of_soleSet_error m calls hsole,
      fire_of_soleSet_error m calls' ((h.soleSet epoch).trans hsole)]
    exact ⟨rfl, h⟩
  | ok set =>
    obtain ⟨q, q', hread, hread', hq, hq', same, hrows, hheld⟩ := (h.inPhase .firing).readPoints
    obtain ⟨hanswer, hafter⟩ := fire_eq m calls hsole hread
    obtain ⟨hanswer', hafter'⟩ := fire_eq m calls' ((h.soleSet epoch).trans hsole) hread'
    have hlabelling : labelling m calls' b.id q' set = labelling m calls a.id q set := by
      rw [h.id_eq, labelling_of_samePoints hm hq hq' same calls]
    rw [hlabelling] at hanswer' hafter'
    rw [hanswer, hanswer', hafter, hafter']
    cases labelling m calls a.id q set with
    | error e => exact ⟨rfl, hheld⟩
    | ok labels =>
      obtain ⟨rows, ha, hb⟩ := hheld.rows
      refine ⟨?_, hheld.id_eq, rfl, rfl, rfl, rows, ha.congr rfl rfl, hb.congr rfl rfl⟩
      simp only [Except.map, Reply.ofAssignment, hrows]

/-- What is asked of operators that are alike they answer alike, and they stay so; but for a
    snapshot that they are to take up, which only one of them may find itself vacant for. -/
theorem Alike.perform {x y : Metered α} (h : Alike width x.operator y.operator)
    (hm : m.Stateless) (hwidth : 0 < width) {op : Operation α} (hop : op.Fits width)
    (hlater : ¬ op.Restores) :
    (perform m y op).1 = (perform m x op).1 ∧
      Alike width (perform m x op).2.operator (perform m y op).2.operator := by
  obtain ⟨rows, hx, hy⟩ := h.rows
  cases op with
  | addPoints points =>
    obtain ⟨n, hn⟩ := hop
    simp only [Assigner.perform, addPoints_eq, h.checkAlive]
    cases x.operator.checkAlive .points with
    | error e => exact ⟨rfl, h⟩
    | ok _ =>
      exact ⟨rfl, h.id_eq, h.phase_eq, h.pending_eq, h.lastEpoch_eq, _, hx.addPoints hwidth hn,
        hy.addPoints hwidth hn⟩
  | receive centroids =>
    simp only [Assigner.perform, receive_eq, h.checkAlive]
    cases x.operator.checkAlive .centroids with
    | error e => exact ⟨rfl, h⟩
    | ok _ =>
      exact ⟨rfl, h.id_eq, h.phase_eq, congrArg (· ++ [centroids]) h.pending_eq, h.lastEpoch_eq,
        rows, hx.congr rfl rfl, hy.congr rfl rfl⟩
  | boundary epoch => exact h.fire hm x.asked y.asked epoch
  | readPoints =>
    obtain ⟨q, q', hread, hread', -, -, -, hrows, hheld⟩ := h.readPoints
    simp only [Assigner.perform, hread, hread', Except.map, Metered.take, hrows]
    exact ⟨trivial, hheld⟩
  | snapshot =>
    obtain ⟨q, q', hread, hread', -, -, -, hrows, hheld⟩ := h.readPoints
    simp only [Assigner.perform, snapshot_eq, hread, hread', Except.map, Metered.take,
      Reply.ofSnapshot, Option.map_some, hrows, hheld.id_eq, hheld.pending_eq, hheld.lastEpoch_eq,
      hheld.phase_eq]
    exact ⟨trivial, hheld⟩
  | restore stored => exact absurd trivial hlater
  | terminate =>
    exact ⟨rfl, h.id_eq, rfl, rfl, h.lastEpoch_eq, [], .terminate width _, .terminate width _⟩

/-- Nor do they show anything that would tell them apart. -/
theorem Alike.operate {x y : Metered α} (h : Alike width x.operator y.operator)
    (hm : m.Stateless) (hwidth : 0 < width) {op : Operation α} (hop : op.Fits width)
    (hlater : ¬ op.Restores) :
    (operate m y op).1 = (operate m x op).1 ∧
      Alike width (operate m x op).2.operator (operate m y op).2.operator := by
  obtain ⟨hreply, hafter⟩ := h.perform hm hwidth hop hlater
  exact ⟨Prod.ext hreply (hafter.sight hwidth), hafter⟩

/-! ## Any series of operations -/

theorem Alike.log {x y : Metered α} (h : Alike width x.operator y.operator) (hm : m.Stateless)
    (hwidth : 0 < width) {later : List (Operation α)}
    (hlater : ∀ op ∈ later, op.Fits width ∧ ¬ op.Restores) :
    History.log (Assigner.operate m) y later = History.log (Assigner.operate m) x later :=
  History.log_eq_log (R := fun y x => Alike width x.operator y.operator)
    (fun _ _ op hop h => h.operate hm hwidth (hlater op hop).1 (hlater op hop).2) h

/-- Whatever was asked of an operator, it holds rows of the one width. -/
theorem exists_holdsRows (m : Measure α) (hwidth : 0 < width) (id : Int) (asked : Nat)
    {past : List (Operation α)} (hpast : ∀ op ∈ past, op.Fits width) :
    ∃ rows, (History.after (Assigner.operate m) ⟨fresh id, asked⟩ past).operator.HoldsRows width
      rows :=
  History.invariant
    (I := fun _ (x : Metered α) => ∃ rows, x.operator.HoldsRows width rows)
    ⟨[], .pieces rfl (by simp [fresh]) rfl⟩
    fun _ _ op hop ⟨_, h⟩ => h.perform m hwidth (hpast op hop)

end Operations

section Restored

variable {width : Nat} {a : Assigner α} {rows : List (List α)}

/-- Storing an operator between two rounds changes nothing of it that can be seen, and a new operator
    of its partition takes up what was stored. -/
theorem HoldsRows.restored (h : a.HoldsRows width rows) (hwidth : 0 < width)
    (hphase : a.phase = .accumulating) :
    ∃ stored kept restored, a.snapshot = .ok (stored, kept) ∧
      (fresh a.id).restore stored = (.ok (), restored) ∧ Alike width a kept ∧
      Alike width a restored := by
  obtain ⟨q, n, w, hq, hsuits, hrows, hread, hheld⟩ := h.readPoints
  have hbetween : PhaseLabel.known a.phase ≠ .known .firing := by
    rw [hphase]
    decide
  let stored : PartitionSnapshot α := ⟨a.id, some q, a.pending, a.lastEpoch, .known a.phase⟩
  have hstored : Storable a.id stored q := ⟨rfl, hbetween, rfl, Tensor.rank_of_shape hq⟩
  have hfilled : ((fresh a.id).filled stored q a.phase).HoldsRows width q.rowLists :=
    filled hq hsuits hwidth (fresh a.id) a.phase
  refine ⟨stored, a.holding q, _, ?_, restore_of_acceptable (acceptable_eq_ok.2
    ⟨vacant_fresh a.id, hstored⟩) rfl, ⟨rfl, rfl, rfl, rfl, rows, h, hheld⟩,
    ⟨rfl, rfl, rfl, rfl, rows, h, hrows ▸ hfilled⟩⟩
  rw [snapshot_eq, hread]
  rfl

end Restored

/-- An operator that takes up what was stored of another one cannot be told from it, nor can the one
    that was stored from what it would have been without that: whatever is asked of them later, and
    however often the measure has been asked meanwhile, the answers and all that is shown are the
    same. -/
theorem restored_cannot_be_told_apart [Scalar α] {m : Measure α} (hm : m.Stateless) {width : Nat}
    (hwidth : 0 < width) (id : Int) (asked : Nat) {past : List (Operation α)}
    (hpast : ∀ op ∈ past, op.Fits width) {original : Assigner α}
    (horiginal : original = (History.after (operate m) ⟨fresh id, asked⟩ past).operator)
    (hphase : original.phase = .accumulating) :
    ∃ stored kept restored, original.snapshot = .ok (stored, kept) ∧
      (fresh original.id).restore stored = (.ok (), restored) ∧
      kept.sight = original.sight ∧ restored.sight = original.sight ∧
      ∀ later, (∀ op ∈ later, op.Fits width ∧ ¬ op.Restores) → ∀ n n' n'',
        History.log (operate m) ⟨kept, n'⟩ later = History.log (operate m) ⟨original, n⟩ later ∧
        History.log (operate m) ⟨restored, n''⟩ later
          = History.log (operate m) ⟨original, n⟩ later := by
  obtain ⟨rows, hrows⟩ := exists_holdsRows m hwidth id asked hpast
  rw [← horiginal] at hrows
  obtain ⟨stored, kept, restored, hsnapshot, hrestore, hkept, hrestored⟩ :=
    hrows.restored hwidth hphase
  refine ⟨stored, kept, restored, hsnapshot, hrestore, hkept.sight hwidth, hrestored.sight hwidth,
    fun later hlater n n' n'' => ⟨?_, ?_⟩⟩
  · exact Alike.log (x := ⟨original, n⟩) (y := ⟨kept, n'⟩) hkept hm hwidth hlater
  · exact Alike.log (x := ⟨original, n⟩) (y := ⟨restored, n''⟩) hrestored hm hwidth hlater

/-! ## A set that waits, and points that come later -/

namespace Sample

/-- One round is over, and the set of the next one waits; an array without points came in between. -/
def past : List (Operation Rat) :=
  [.addPoints pair, .receive pair, .boundary 0, .addPoints (.ofRowLists [1] []), .receive pair]

/-- Points come, the boundary is passed, and then passed again; then all is over. -/
def later : List (Operation Rat) :=
  [.addPoints pair, .boundary 1, .snapshot, .boundary 1, .terminate, .receive pair]

end Sample

/-- The operator that takes up the sample answers as the sample would have. -/
theorem restored_cannot_be_told_apart_sample : ∃ original stored kept restored,
    original = (History.after (operate Sample.measure) ⟨fresh 0, 0⟩ Sample.past).operator ∧
      original.snapshot = .ok (stored, kept) ∧ (fresh 0).restore stored = (.ok (), restored) ∧
      restored.sight = ⟨.accumulating, 2, 1, some 0⟩ ∧
      History.log (operate Sample.measure) ⟨kept, 1⟩ Sample.later
        = History.log (operate Sample.measure) ⟨original, 1⟩ Sample.later ∧
      History.log (operate Sample.measure) ⟨restored, 7⟩ Sample.later
        = History.log (operate Sample.measure) ⟨original, 1⟩ Sample.later := by
  have hpair : (Operation.addPoints Sample.pair).Fits 1 := ⟨2, rfl⟩
  have hpast : ∀ op ∈ Sample.past, op.Fits 1 := by
    simp only [Sample.past, List.forall_mem_cons]
    exact ⟨hpair, trivial, trivial, ⟨0, rfl⟩, trivial, fun _ h => nomatch h⟩
  have hlater : ∀ op ∈ Sample.later, op.Fits 1 ∧ ¬ op.Restores := by
    simp only [Sample.later, List.forall_mem_cons]
    have hother : True ∧ ¬ False := ⟨trivial, not_false⟩
    exact ⟨⟨hpair, not_false⟩, hother, hother, hother, hother, hother, fun _ h => nomatch h⟩
  obtain ⟨stored, kept, restored, hsnapshot, hrestore, -, hsight, hlogs⟩ :=
    restored_cannot_be_told_apart (m := Sample.measure) (Measure.stateless_euclidean _) Nat.one_pos
      0 0 hpast rfl (by rfl)
  obtain ⟨hkept, hrestored⟩ := hlogs Sample.later hlater 1 1 7
  exact ⟨_, stored, kept, restored, rfl, hsnapshot, hrestore, hsight.trans (by rfl), hkept, hrestored⟩

end Assigner
end ClusterRounds
