/-
  ClusterRounds.Proofs.Interruption

  Boundaries that are not passed. A boundary that is refused leaves the operator as it was.
  One that is begun and broken off, because the points cannot be stacked, because they are not
  of the width of the centroids, or because the measure has no answer, leaves it at the
  boundary: it still holds its points and the set, and has passed no later boundary than
  before, but what is stored of it from then on cannot be taken up by anybody
  (`failed_boundary_leaves`). Points without coordinates are still given to whoever asks for
  them, but are no longer counted.
-/

import ClusterRounds.Proofs.Takeover

namespace ClusterRounds
namespace Assigner

variable {α : Type}

/-! ## Operators that can be stored and taken up -/

/-- A snapshot can be taken of the operator, and a new one of its partition takes it up. -/
def Restorable (a : Assigner α) : Prop :=
  ∃ stored kept, a.snapshot = .ok (stored, kept) ∧ ((fresh a.id).restore stored).1 = .ok ()

/-- It has to be between two rounds, and to give a matrix to whoever asks for its points. -/
theorem restorable_iff {a : Assigner α} :
    a.Restorable ↔ a.phase ≠ .firing ∧ ∃ q, a.contents = .ok q ∧ q.rank = 2 := by
  unfold Restorable contents
  rw [snapshot_eq]
  cases hread : a.readPoints with
  | error e => exact iff_of_false (fun ⟨_, _, h, _⟩ => nomatch h) fun ⟨_, _, h, _⟩ => nomatch h
  | ok read =>
    obtain ⟨q, b⟩ := read
    obtain ⟨hid, hphase, -, -⟩ := readPoints_same hread
    have hstored (stored : PartitionSnapshot α) (kept : Assigner α) :
        (.ok (⟨b.id, some q, b.pending, b.lastEpoch, .known b.phase⟩, b)
          : Outcome (PartitionSnapshot α × Assigner α)) = .ok (stored, kept) ↔
        stored = ⟨a.id, some q, b.pending, b.lastEpoch, .known a.phase⟩ ∧ kept = b := by
      rw [Except.ok.injEq, Prod.mk.injEq, hid, hphase]
      exact and_congr eq_comm eq_comm
    simp only [Except.map, hstored, restore_eq_ok]
    constructor
    · rintro ⟨_, _, ⟨rfl, -⟩, -, ⟨q', hq'⟩, -⟩
      obtain rfl : q = q' := Option.some.inj hq'.points_eq
      exact ⟨fun h => hq'.between (congrArg _ h), q, rfl, hq'.rank_eq⟩
    · rintro ⟨hbetween, _, ⟨⟩, hrank⟩
      refine ⟨_, _, ⟨rfl, rfl⟩, vacant_fresh a.id, ⟨q, rfl, ?_, rfl, hrank⟩, a.phase, rfl⟩
      exact fun h => hbetween (PhaseLabel.known.inj h)

/-! ## What a boundary that fails leaves behind -/

section Boundary

variable [Scalar α] {m : Measure α} {calls : Nat} {a : Assigner α} {epoch : Int} {e : Failure}

/-- All that a boundary which fails can come to: it was refused; or it was begun, and broken off
    before or behind the reading of the points. -/
theorem fire_failed_cases (h : (a.fire m calls epoch).answer = .error e) :
    (a.Refuses epoch ∧ (a.fire m calls epoch).assigner = a) ∨
    (¬ a.Refuses epoch ∧
      (((∀ q, a.contents ≠ .ok q) ∧ (a.fire m calls epoch).assigner = { a with phase := .firing }) ∨
        ∃ q b, a.readPoints = .ok (q, b) ∧
          (a.fire m calls epoch).assigner = { b with phase := .firing })) := by
  rcases soleSet_cases_of_refuses a epoch with
    ⟨hrefuses, e', hsole⟩ | ⟨hbegun, set, hsole, -⟩
  · exact .inl ⟨hrefuses, by rw [fire_of_soleSet_error m calls hsole]⟩
  · refine .inr ⟨hbegun, ?_⟩
    have hfiring := readPoints_inPhase a .firing
    cases hread : a.readPoints with
    | error e' =>
      rw [hread] at hfiring
      refine .inl ⟨fun q hq => ?_, by rw [fire_of_readPoints_error m calls hsole hfiring]⟩
      obtain ⟨b, hb⟩ := contents_eq_ok.1 hq
      rw [hread] at hb
      cases hb
    | ok read =>
      rw [hread] at hfiring
      obtain ⟨hanswer, hafter⟩ := fire_eq m calls hsole hfiring
      rw [hanswer] at h
      refine .inr ⟨read.1, read.2, rfl, ?_⟩
      cases hlabelling : labelling m calls a.id read.1 set with
      | error e' => rw [hafter, hlabelling]
      | ok labels =>
        rw [hlabelling] at h
        cases h

/-- The same partition, sets, last boundary and points; the phase may be another. -/
structure SameHoldings (a b : Assigner α) : Prop where
  id_eq : b.id = a.id
  pending_eq : b.pending = a.pending
  lastEpoch_eq : b.lastEpoch = a.lastEpoch
  contents_eq : b.contents = a.contents

/-- The points are no longer counted if there are some, but none of them has a coordinate. -/
def Discounts (a : Assigner α) : Prop := a.pointCount ≠ 0 ∧ ∃ q, a.contents = .ok q ∧ q.entries = []

/-- A boundary that was begun and broken off leaves the operator there with all it holds. -/
theorem Coherent.broken_off (h : a.Coherent) (hbegun : ¬ a.Refuses epoch)
    (hfail : (a.fire m calls epoch).answer = .error e) :
    (a.fire m calls epoch).assigner.phase = .firing ∧
      SameHoldings a (a.fire m calls epoch).assigner ∧
      ((a.fire m calls epoch).assigner.pointCount = a.pointCount ↔ ¬ a.Discounts) := by
  rcases fire_failed_cases hfail with ⟨hrefuses, -⟩ | ⟨-, ⟨hnone, hafter⟩ | ⟨q, b, hread, hafter⟩⟩
  · exact absurd hrefuses hbegun
  · rw [hafter]
    refine ⟨rfl, ⟨rfl, rfl, rfl, contents_inPhase a .firing⟩, iff_of_true rfl ?_⟩
    exact fun ⟨_, q, hq, _⟩ => hnone q hq
  · obtain rfl := h.readPoints hread
    have hq : a.contents = .ok q := contents_eq_ok.2 ⟨_, hread⟩
    rw [hafter]
    refine ⟨rfl, ⟨rfl, rfl, rfl, hq.symm⟩, ?_⟩
    show (a.holding q).pointCount = a.pointCount ↔ _
    rw [pointCount_holding]
    by_cases he : q.entries = []
    · rw [if_pos (List.isEmpty_iff.2 he)]
      refine ⟨fun hzero hd => hd.1 hzero.symm, fun hd => ?_⟩
      by_contra hcount
      exact hd ⟨fun hzero => hcount hzero.symm, q, hq, he⟩
    · rw [if_neg (by simpa using he)]
      refine iff_of_true (h.pointCount hq he).symm ?_
      rintro ⟨-, q', hq', he'⟩
      rw [hq, Except.ok.injEq] at hq'
      exact he (hq' ▸ he')

end Boundary

/-- Whatever was asked of an operator before, a boundary that fails leaves it with its points, its
    sets and its last boundary. If the boundary was refused, nothing at all has changed. Otherwise
    the operator stays at the boundary, and a snapshot of it cannot be taken up. So its phase is what
    it was only if the boundary was refused, or if it was at one already; and of its points only
    those without coordinates are no longer counted. -/
theorem failed_boundary_leaves [Scalar α] (m : Measure α) (id : Int) (asked : Nat)
    (past : List (Operation α)) (epoch : Int) {a b : Metered α} {e : Failure}
    (ha : a = after m id asked past) (hb : perform m a (.boundary epoch) = (.error e, b)) :
    SameHoldings a.operator b.operator ∧
    (a.operator.Refuses epoch → b.operator = a.operator) ∧
    (¬ a.operator.Refuses epoch → b.operator.phase = .firing) ∧
    (b.operator.phase = a.operator.phase ↔
      a.operator.Refuses epoch ∨ a.operator.phase = .firing) ∧
    (b.operator.Restorable ↔ a.operator.Refuses epoch ∧ a.operator.Restorable) ∧
    (b.operator.pointCount = a.operator.pointCount ↔
      a.operator.Refuses epoch ∨ ¬ a.operator.Discounts) := by
  have hcoherent : a.operator.Coherent := ha ▸ coherent_after m id asked past
  obtain ⟨hanswer, rfl⟩ := Prod.mk.inj hb
  replace hanswer : (a.operator.fire m a.asked epoch).answer = .error e := by
    cases h : (a.operator.fire m a.asked epoch).answer with
    | error e' =>
      rw [h] at hanswer
      exact congrArg _ (Except.error.inj hanswer)
    | ok out =>
      rw [h] at hanswer
      cases hanswer
  by_cases hrefuses : a.operator.Refuses epoch
  · have hsame : (a.operator.fire m a.asked epoch).assigner = a.operator := by
      rcases fire_failed_cases hanswer with ⟨-, hsame⟩ | ⟨hbegun, -⟩
      · exact hsame
      · exact absurd hrefuses hbegun
    rw [hsame]
    exact ⟨⟨rfl, rfl, rfl, rfl⟩, fun _ => rfl, fun h => absurd hrefuses h,
      iff_of_true rfl (.inl hrefuses),
      ⟨fun h => ⟨hrefuses, h⟩, And.right⟩, iff_of_true rfl (.inl hrefuses)⟩
  · obtain ⟨hphase, hsame, hcount⟩ := hcoherent.broken_off hrefuses hanswer
    refine ⟨hsame, fun h => absurd h hrefuses, fun _ => hphase, ?_, ?_, ?_⟩
    · rw [hphase]
      exact ⟨fun h => .inr h.symm, fun h => (h.resolve_left hrefuses).symm⟩
    · exact iff_of_false (fun h => (restorable_iff.1 h).1 hphase) fun h => hrefuses h.1
    · rw [hcount]
      exact ⟨.inr, fun h => h.resolve_left hrefuses⟩

/-! ## A centroid with one coordinate too many -/

namespace Sample

/-- A centroid in the plane is on its way to points that have so many coordinates. -/
def misfit (points : Tensor Rat) : List (Operation Rat) :=
  [.addPoints points, .receive (.ofRowLists [2] [[1, 2]])]

/-- One point on a line. -/
def onLine : List (Operation Rat) := misfit (.ofRowLists [1] [[1]])

/-- Three points without coordinates. -/
def nowhere : List (Operation Rat) := misfit (.filled [3, 0] 0)

end Sample

/-- Three points without coordinates are no longer counted after a boundary that failed. -/
theorem failed_boundary_leaves_nowhere : ∃ e b,
    perform Sample.measure (after Sample.measure 0 0 Sample.nowhere) (.boundary 0) = (.error e, b) ∧
      (after Sample.measure 0 0 Sample.nowhere).operator.sight = ⟨.accumulating, 3, 1, none⟩ ∧
      b.operator.sight = ⟨.firing, 0, 1, none⟩ ∧ b.operator.contents = .ok (.filled [3, 0] 0) ∧
      ¬ b.operator.Restorable := by
  obtain ⟨hsame, -, -, -, hrestorable, -⟩ := failed_boundary_leaves Sample.measure 0 0 Sample.nowhere
    0 rfl rfl
  refine ⟨_, _, rfl, rfl, rfl, hsame.contents_eq, fun h => ?_⟩
  rcases (hrestorable.1 h).1 with h | ⟨_, h, _⟩ | h
  · cases h
  · cases h
  · exact h rfl

/-- A boundary fails for the width of its one point, and the operator, of which a snapshot could be
    taken up before, is at the boundary from then on. -/
theorem broken_off_stays_at_boundary :
    (after Sample.measure 0 0 Sample.onLine).operator.sight = ⟨.accumulating, 1, 1, none⟩ ∧
    (after Sample.measure 0 0 Sample.onLine).operator.Restorable ∧
    ∃ b, perform Sample.measure (after Sample.measure 0 0 Sample.onLine) (.boundary 0)
        = (.error (.protocol (.widths 0 1 2)), b) ∧
      b.operator.sight = ⟨.firing, 1, 1, none⟩ ∧ ¬ b.operator.Restorable :=
  ⟨rfl, restorable_iff.2 ⟨nofun, _, rfl, rfl⟩, _, rfl, rfl, fun h => (restorable_iff.1 h).1 rfl⟩

end Assigner
end ClusterRounds
