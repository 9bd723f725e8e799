/-
  ClusterRounds.Proofs.Course

  The course of a run, apart from who computes it. A `Task` is what is to be clustered
  and how; `Task.turn` is what one round makes of the centroids, a function of the
  points and the centroids alone. Between two rounds a run is at a `Mark`; `Leads` and
  `Finishes` say which marks and which findings follow from one. What follows does not
  depend on how a run got to its mark, and there is at most one finding.
-/

import ClusterRounds.Iteration.Run
import ClusterRounds.Measure.Kinds
import ClusterRounds.Proofs.Boundary
import ClusterRounds.Proofs.Outcome
import ClusterRounds.Proofs.Stopping

namespace ClusterRounds

variable {α : Type}

/-! ## What a run is about -/

/-- What is to be clustered: the points of the partitions, by a measure and with settings. -/
structure Task (α : Type) where
  settings : Settings
  measure : Measure α
  points : List (Tensor α)

/-- Where a run is between two rounds. -/
structure Mark (α : Type) where
  epoch : Int
  centroids : Tensor α
  inertia : List α

/-- Before the first round. -/
def Mark.start (initial : Tensor α) : Mark α := ⟨0, initial, []⟩

/-- What a round comes to. -/
structure Turn (α : Type) where
  next : Tensor α
  inertia : α
  labels : List Int
  converged : Bool
  stop : Bool

/-- What a run finds out: all of its result but the time it took. -/
@[ext] structure Findings (α : Type) where
  centroids : Tensor α
  rounds : Int
  converged : Bool
  labels : List Int
  inertia : List α

def RunResult.findings (r : RunResult α) : Findings α :=
  ⟨r.centroids, r.rounds, r.converged, r.labels, r.inertia⟩

/-- The mark after a round. -/
def Mark.after (mark : Mark α) (t : Turn α) : Mark α :=
  ⟨mark.epoch + 1, t.next, mark.inertia ++ [t.inertia]⟩

/-- What is found if a round is the last. -/
def Mark.findings (mark : Mark α) (t : Turn α) : Findings α :=
  ⟨t.next, mark.epoch + 1, t.converged, t.labels, mark.inertia ++ [t.inertia]⟩

/-- The means of all clusters with points, out of what the partitions bring. -/
def nextCentroids [Scalar α] (k : Nat) (outputs : List (PartitionOutput α))
    (centroids : Tensor α) : Outcome (Tensor α) := do
  let merged ← Aggregate.reduce (outputs.map (·.sums))
  let means ← merged.mapM fun e => e.2.mean
  return (← (Collector.ofSize k).collect means centroids).1

namespace Task

variable [Scalar α]

/-- What all partitions bring. -/
def outputs (task : Task α) (centroids : Tensor α) : Outcome (List (PartitionOutput α)) :=
  task.points.mapM (Iteration.contribution task.measure task.settings.k centroids 0)

/-- A whole round, at the end of which a criterion is asked. -/
def turnAsking (task : Task α) (criterion : Criterion α) (mark : Mark α) : Outcome (Turn α) := do
  let outputs ← task.outputs mark.centroids
  let next ← nextCentroids task.settings.k outputs mark.centroids
  discard <| Outcome.ofOperands (Quality.shift mark.centroids next)
  let round := mark.epoch + 1
  let asked := criterion.ask round next (some mark.centroids)
  let stop ← asked.1
  return { next
           inertia := (outputs.map (·.inertia)).foldl (· + ·) 0
           labels := (outputs.map (·.labels)).flatten
           converged := asked.2.hasConverged || (stop && round < task.settings.maxRounds)
           stop }

/-- A whole round, with the criterion of the settings. -/
def turn (task : Task α) (mark : Mark α) : Outcome (Turn α) :=
  task.turnAsking (.ofSettings task.settings) mark

/-- A mark to which rounds lead that do not stop the run. -/
inductive Leads (task : Task α) (mark : Mark α) : Mark α → Prop
  | here : Leads task mark mark
  | round {mid : Mark α} {t : Turn α} (before : Leads task mark mid) (turn : task.turn mid = .ok t)
      (goesOn : t.stop = false) : Leads task mark (mid.after t)

/-- What is found by the rounds from a mark on, the last of them being the first that stops. -/
inductive Finishes (task : Task α) : Mark α → Findings α → Prop
  | last {mark : Mark α} {t : Turn α} (turn : task.turn mark = .ok t) (stops : t.stop = true) :
      Finishes task mark (mark.findings t)
  | round {mark : Mark α} {t : Turn α} {found : Findings α} (turn : task.turn mark = .ok t)
      (goesOn : t.stop = false) (rest : Finishes task (mark.after t) found) :
      Finishes task mark found

variable {task : Task α} {mark mid : Mark α} {found found' : Findings α}

theorem Leads.finishes (h : task.Leads mark mid) (hf : task.Finishes mid found) :
    task.Finishes mark found := by
  induction h with
  | here => exact hf
  | round _ turn goesOn ih => exact ih (.round turn goesOn hf)

/-- There is nothing to choose. -/
theorem Finishes.unique (h : task.Finishes mark found) (h' : task.Finishes mark found') :
    found = found' := by
  induction h with
  | last turn stops =>
    cases h' with
    | last turn' _ =>
      rw [turn] at turn'
      cases turn'
      rfl
    | round turn' goesOn _ =>
      rw [turn] at turn'
      cases turn'
      rw [stops] at goesOn
      cases goesOn
  | round turn goesOn _ ih =>
    cases h' with
    | last turn' stops =>
      rw [turn] at turn'
      cases turn'
      rw [stops] at goesOn
      cases goesOn
    | round turn' _ rest' =>
      rw [turn] at turn'
      cases turn'
      exact ih rest'

/-- What the run finds from its start it also finds from every mark on its way. -/
theorem Leads.finishes_mid (h : task.Leads mark mid) (hf : task.Finishes mark found) :
    task.Finishes mid found := by
  induction h with
  | here => exact hf
  | round _ turn goesOn ih =>
    cases ih with
    | last turn' stops =>
      rw [turn] at turn'
      cases turn'
      rw [stops] at goesOn
      cases goesOn
    | round turn' _ rest =>
      rw [turn] at turn'
      cases turn'
      exact rest

theorem Leads.trans {far : Mark α} (h : task.Leads mark mid) (h' : task.Leads mid far) :
    task.Leads mark far := by
  induction h' with
  | here => exact h
  | round _ turn goesOn ih => exact .round ih turn goesOn

theorem Leads.epoch_le (h : task.Leads mark mid) : mark.epoch ≤ mid.epoch := by
  induction h with
  | here => exact Int.le_refl _
  | round _ _ _ ih => exact Int.le_trans ih (Int.le_add_one (Int.le_refl _))

end Task

/-! ## Measures that answer alike -/

/-- Asked about points and centroids of one width, the measure answers as `base` does when it is
    asked first, or breaks down. -/
def Measure.Follows (m base : Measure α) : Prop :=
  ∀ call points centroids, points.rank = 2 → centroids.rank = 2 →
    points.innerShape = centroids.innerShape →
    (∃ e, m.pairwise call points centroids = .error e) ∨
      m.pairwise call points centroids = base.pairwise 0 points centroids

/-- Asked about points and centroids of one width, the measure answers as `base` does when it is
    asked first, at every call. -/
def Measure.Matches (m base : Measure α) : Prop :=
  ∀ call points centroids, points.rank = 2 → centroids.rank = 2 →
    points.innerShape = centroids.innerShape →
    m.pairwise call points centroids = base.pairwise 0 points centroids

theorem Measure.Matches.follows {m base : Measure α} (h : m.Matches base) : m.Follows base :=
  fun call points centroids hp hc hs => .inr (h call points centroids hp hc hs)

theorem Measure.Stateless.matches {m : Measure α} (h : m.Stateless) : m.Matches m :=
  fun call points centroids _ _ _ => h call 0 points centroids

/-- One call may fail. -/
theorem Measure.Stateless.failingAt_follows {m : Measure α} (h : m.Stateless) (at_ : Int)
    (text : String) : (m.failingAt at_ text).Follows m := by
  intro call points centroids _ _ _
  by_cases hcall : (call : Int) = at_
  · exact .inl ⟨_, if_pos hcall⟩
  · right
    rw [← h call 0 points centroids]
    exact if_neg hcall

theorem Measure.stateless_euclidean [Scalar α] (className : String) :
    (Measure.euclidean className : Measure α).Stateless := fun _ _ _ _ => rfl

/-- The Euclidean measure takes the distances of one row after the other. -/
theorem Measure.rowByRow_euclidean [Scalar α] (className : String) :
    (Measure.euclidean className : Measure α).RowByRow fun centroids point =>
      centroids.rowLists.map (rowDistance point) := by
  intro call points centroids hp hc hs
  obtain ⟨n, w, hpoints⟩ := Tensor.exists_shape_of_rank_two hp
  obtain ⟨k, w', hcentroids⟩ := Tensor.exists_shape_of_rank_two hc
  obtain rfl : w' = w := by
    rw [Tensor.innerShape_of_shape hpoints, Tensor.innerShape_of_shape hcentroids] at hs
    simpa using hs.symm
  -- all rows have the common width already
  have hwiden : ∀ {t : Tensor α} {n : Nat}, t.shape = [n, w'] → ∀ x ∈ t.rowLists,
      widen w' x = x := by
    intro t n ht x hx
    exact if_pos (by simpa using Tensor.length_of_mem_rowLists ht hx)
  refine ⟨?_, fun point _ => ?_⟩
  · show Outcome.ofOperands (euclideanMatrix points centroids) = _
    unfold euclideanMatrix
    rw [Tensor.width_of_shape hpoints, Tensor.width_of_shape hcentroids]
    simp only [hp, hc, Shape.joinAxis, bind, Except.bind, ne_eq, not_true, decide_false, Bool.or_self,
      Bool.false_eq_true, if_false, if_true, pure, Except.pure, ofOperands_ok, Except.ok.injEq]
    refine List.map_congr_left fun x hx => ?_
    rw [hwiden hpoints x hx, List.map_map]
    exact List.map_congr_left fun c hc => by rw [Function.comp, hwiden hcentroids c hc]
  · rw [List.length_map, Tensor.length_rowLists hcentroids, Tensor.rowTotal_of_shape hcentroids]

section Measures

variable [Scalar α] {m base : Measure α} {k call : Nat} {centroids points : Tensor α}
  (hp : points.rank = 2) (hc : centroids.rank = 2) (suits : points.Suits centroids)

include hp hc suits

theorem Measure.Matches.contribution (h : m.Matches base) :
    Iteration.contribution m k centroids call points
      = Iteration.contribution base k centroids 0 points := by
  unfold Iteration.contribution Measure.nearest
  rcases suits with h0 | hs
  · -- there are no points, so the measure is not asked
    rw [h0]
    rfl
  · rw [h call points centroids hp hc hs]

theorem Measure.Follows.contribution {o : PartitionOutput α} (h : m.Follows base)
    (ho : Iteration.contribution m k centroids call points = .ok o) :
    Iteration.contribution base k centroids 0 points = .ok o := by
  unfold Iteration.contribution Measure.nearest at ho ⊢
  rcases suits with h0 | hs
  · rw [h0] at ho ⊢
    exact ho
  · rcases h call points centroids hp hc hs with ⟨e, he⟩ | h
    · -- the measure broke down, so it was not asked
      cases hn : points.rowCount with
      | error e => rw [hn] at ho; cases ho
      | ok n =>
        rw [hn] at ho
        by_cases h0 : n = 0
        · subst h0
          exact ho
        · simp [h0, he, bind, Except.bind] at ho
    · rw [h] at ho
      exact ho

end Measures

/-! ## Shapes -/

namespace Collector

theorem length_rowEntries {inner : Shape} {centroid : Tensor α} {row : List α}
    (h : rowEntries inner centroid = .ok row) : row.length = inner.size := by
  unfold rowEntries at h
  dsimp only at h
  split at h
  · cases h
  · unfold Tensor.stretchTo at h
    dsimp only at h
    split at h
    · cases h
      exact Tensor.length_entries _
    · cases h

/-- A mean is put in the place of its cluster, if that is one and is free. -/
theorem place_eq_ok {k : Int} {inner : Shape} {p p' : Progress α} {entry : Int × Tensor α} :
    place k inner p entry = .ok p' ↔
      (0 ≤ entry.1 ∧ entry.1 < k) ∧ p.filled.getD entry.1.toNat false = false ∧
        ∃ row, rowEntries inner entry.2 = .ok row ∧
          p' = ⟨p.rows.set entry.1.toNat row, p.filled.set entry.1.toNat true⟩ := by
  unfold place
  dsimp only
  by_cases hin : 0 ≤ entry.1 ∧ entry.1 < k
  · have hrange : (decide (entry.1 < 0) || decide (k ≤ entry.1)) = false := by
      simp only [Bool.or_eq_false_iff, decide_eq_false_iff_not]
      omega
    rw [hrange]
    cases hfilled : p.filled.getD entry.1.toNat false with
    | true => exact iff_of_false (fun h => by cases h) fun h => nomatch h.2.1
    | false =>
      simp only [Bool.false_eq_true, if_false, bind_eq_ok, pure_eq_ok, ofOperands_eq_ok, hin,
        true_and, and_self]
      exact exists_congr fun row => and_congr_right fun _ => eq_comm
  · have hrange : (decide (entry.1 < 0) || decide (k ≤ entry.1)) = true := by
      simp only [Bool.or_eq_true, decide_eq_true_eq]
      omega
    rw [hrange]
    exact iff_of_false (fun h => by cases h) fun h => hin h.1

/-- A mean that is put in its place keeps the table of rows a table. -/
theorem place_rows {k : Int} {inner : Shape} {p p' : Progress α} {entry : Int × Tensor α}
    (h : place k inner p entry = .ok p') (hrows : ∀ row ∈ p.rows, row.length = inner.size) :
    p'.rows.length = p.rows.length ∧ ∀ row ∈ p'.rows, row.length = inner.size := by
  obtain ⟨-, -, row, hrow, rfl⟩ := place_eq_ok.1 h
  refine ⟨List.length_set, fun r hr => ?_⟩
  rcases List.mem_or_eq_of_mem_set hr with hr | rfl
  · exact hrows r hr
  · exact length_rowEntries hrow

theorem foldlM_place_rows {k : Int} {inner : Shape} {p p' : Progress α} :
    ∀ {means : List (Int × Tensor α)}, means.foldlM (place k inner) p = .ok p' →
      (∀ row ∈ p.rows, row.length = inner.size) →
      p'.rows.length = p.rows.length ∧ ∀ row ∈ p'.rows, row.length = inner.size := by
  intro means
  induction means generalizing p with
  | nil =>
    intro h hrows
    cases pure_eq_ok.1 h
    exact ⟨rfl, hrows⟩
  | cons entry means ih =>
    intro h hrows
    rw [List.foldlM_cons] at h
    obtain ⟨mid, hmid, h⟩ := bind_eq_ok.1 h
    obtain ⟨hlen, hmidRows⟩ := place_rows hmid hrows
    obtain ⟨hlen', hrows'⟩ := ih h hmidRows
    exact ⟨hlen'.trans hlen, hrows'⟩

theorem k_of_collect {c c' : Collector} {means : List (Int × Tensor α)} {previous next : Tensor α}
    (h : c.collect means previous = .ok (next, c')) : c'.k = c.k := by
  unfold collect at h
  obtain ⟨_, -, h⟩ := bind_eq_ok.1 h
  split at h
  · cases h
  · obtain ⟨_, -, h⟩ := bind_eq_ok.1 h
    cases pure_eq_ok.1 h
    rfl

/-- The next centroids are a matrix like the previous ones. -/
theorem shape_collect {c c' : Collector} {means : List (Int × Tensor α)} {previous next : Tensor α}
    (h : c.collect means previous = .ok (next, c')) : next.shape = previous.shape := by
  unfold collect at h
  obtain ⟨count, hcount, h⟩ := bind_eq_ok.1 h
  obtain ⟨inner, hshape⟩ := Tensor.exists_shape_of_rowCount (ofOperands_eq_ok.1 hcount)
  split at h
  · cases h
  · obtain ⟨done, hdone, h⟩ := bind_eq_ok.1 h
    cases pure_eq_ok.1 h
    rw [Tensor.innerShape_of_shape hshape] at hdone ⊢
    obtain ⟨hlen, hrows⟩ := foldlM_place_rows hdone
      fun row hrow => Tensor.length_of_mem_rowLists hshape hrow
    rw [Tensor.shape_ofRowLists hrows, hlen, Tensor.length_rowLists hshape, hshape]

end Collector

section NextCentroids

variable [Scalar α] {k : Nat} {outputs : List (PartitionOutput α)} {centroids next : Tensor α}

theorem nextCentroids_eq_ok : nextCentroids k outputs centroids = .ok next ↔
    ∃ merged means collector, Aggregate.reduce (outputs.map (·.sums)) = .ok merged ∧
      merged.mapM (fun e => e.2.mean) = .ok means ∧
      (Collector.ofSize k).collect means centroids = .ok (next, collector) := by
  unfold nextCentroids
  simp only [bind_eq_ok, pure_eq_ok]
  constructor
  · rintro ⟨merged, hmerged, means, hmeans, ⟨_, collector⟩, hcollect, rfl⟩
    exact ⟨merged, means, collector, hmerged, hmeans, hcollect⟩
  · rintro ⟨merged, means, collector, hmerged, hmeans, hcollect⟩
    exact ⟨merged, hmerged, means, hmeans, _, hcollect, rfl⟩

theorem nextCentroids_eq_error {e : Failure} : nextCentroids k outputs centroids = .error e ↔
    Aggregate.reduce (outputs.map (·.sums)) = .error e ∨
    ∃ merged, Aggregate.reduce (outputs.map (·.sums)) = .ok merged ∧
      (merged.mapM (fun e => e.2.mean) = .error e ∨
      ∃ means, merged.mapM (fun e => e.2.mean) = .ok means ∧
        (Collector.ofSize k).collect means centroids = .error e) := by
  unfold nextCentroids
  simp only [bind_eq_error, pure, Except.pure, reduceCtorEq, and_false, exists_false, or_false]

theorem shape_nextCentroids (h : nextCentroids k outputs centroids = .ok next) :
    next.shape = centroids.shape := by
  obtain ⟨_, _, _, _, _, hcollect⟩ := nextCentroids_eq_ok.1 h
  exact Collector.shape_collect hcollect

end NextCentroids

namespace Task

/-- Points and centroids fit the settings and each other: everything is a matrix, there are `k`
    centroids, and where there are points they have as many coordinates as these. -/
structure Shaped (task : Task α) (width : Nat) (centroids : Tensor α) : Prop where
  centroids : centroids.shape = [task.settings.k, width]
  points : ∀ p ∈ task.points, ∃ n w, p.shape = [n, w] ∧ (n = 0 ∨ w = width)

variable {task : Task α} {width : Nat} {centroids p : Tensor α}

theorem Shaped.rank (h : task.Shaped width centroids) : centroids.rank = 2 :=
  Tensor.rank_of_shape h.centroids

theorem Shaped.rank_points (h : task.Shaped width centroids) (hp : p ∈ task.points) :
    p.rank = 2 := by
  obtain ⟨n, w, hs, -⟩ := h.points p hp
  exact Tensor.rank_of_shape hs

theorem Shaped.suits (h : task.Shaped width centroids) (hp : p ∈ task.points) :
    p.Suits centroids := by
  obtain ⟨n, w, hs, hn | hw⟩ := h.points p hp
  · exact .inl (by rw [Tensor.rowCount_of_shape hs, hn])
  · exact .inr (by rw [Tensor.innerShape_of_shape hs, Tensor.innerShape_of_shape h.centroids, hw])

section Turn

variable [Scalar α] {criterion : Criterion α} {mark : Mark α} {t : Turn α}

/-- What is left of a round once the partitions have brought their outputs. -/
def turnFrom (task : Task α) (criterion : Criterion α) (mark : Mark α)
    (outputs : List (PartitionOutput α)) : Outcome (Turn α) := do
  let next ← nextCentroids task.settings.k outputs mark.centroids
  discard <| Outcome.ofOperands (Quality.shift mark.centroids next)
  let round := mark.epoch + 1
  let asked := criterion.ask round next (some mark.centroids)
  let stop ← asked.1
  return { next
           inertia := (outputs.map (·.inertia)).foldl (· + ·) 0
           labels := (outputs.map (·.labels)).flatten
           converged := asked.2.hasConverged || (stop && round < task.settings.maxRounds)
           stop }

theorem turnAsking_eq_bind :
    task.turnAsking criterion mark = task.outputs mark.centroids >>= task.turnFrom criterion mark :=
  rfl

/-- What outputs come to, part by part. -/
theorem turnFrom_eq_ok {outputs : List (PartitionOutput α)} :
    task.turnFrom criterion mark outputs = .ok t ↔ ∃ next change stop,
      nextCentroids task.settings.k outputs mark.centroids = .ok next ∧
      Quality.shift mark.centroids next = .ok change ∧
      (criterion.ask (mark.epoch + 1) next (some mark.centroids)).1 = .ok stop ∧
      t = { next
            inertia := (outputs.map (·.inertia)).foldl (· + ·) 0
            labels := (outputs.map (·.labels)).flatten
            converged :=
              (criterion.ask (mark.epoch + 1) next (some mark.centroids)).2.hasConverged
                || (stop && mark.epoch + 1 < task.settings.maxRounds)
            stop } := by
  unfold turnFrom
  simp only [bind_eq_ok, pure_eq_ok]
  constructor
  · rintro ⟨next, hn, _, hd, stop, hs, rfl⟩
    obtain ⟨change, hc⟩ : ∃ change, Quality.shift mark.centroids next = .ok change := by
      cases hc : Quality.shift mark.centroids next with
      | ok change => exact ⟨change, rfl⟩
      | error e => rw [hc] at hd; cases hd
    exact ⟨next, change, stop, hn, hc, hs, rfl⟩
  · rintro ⟨next, change, stop, hn, hc, hs, rfl⟩
    exact ⟨next, hn, (), by rw [hc]; rfl, stop, hs, rfl⟩

/-- How outputs come to nothing: without next centroids, without a change that could be told, or
    without an answer of the criterion. -/
theorem turnFrom_eq_error {outputs : List (PartitionOutput α)} {e : Failure} :
    task.turnFrom criterion mark outputs = .error e ↔
      nextCentroids task.settings.k outputs mark.centroids = .error e ∨
      ∃ next, nextCentroids task.settings.k outputs mark.centroids = .ok next ∧
        (Outcome.ofOperands (Quality.shift mark.centroids next) = .error e ∨
        ∃ change, Quality.shift mark.centroids next = .ok change ∧
          (criterion.ask (mark.epoch + 1) next (some mark.centroids)).1 = .error e) := by
  unfold turnFrom
  rw [bind_eq_error]
  refine or_congr_right (exists_congr fun next => and_congr_right fun _ => ?_)
  cases Quality.shift mark.centroids next with
  | error fault =>
    show (Except.error (Failure.operand fault) : Outcome (Turn α)) = _ ↔ _
    simp
  | ok change =>
    show ((criterion.ask (mark.epoch + 1) next (some mark.centroids)).1 >>= _) = _ ↔ _
    simp [bind_eq_error, pure, Except.pure]

/-- What a round comes to, part by part. -/
theorem turnAsking_eq_ok : task.turnAsking criterion mark = .ok t ↔
    ∃ outputs next change stop, task.outputs mark.centroids = .ok outputs ∧
      nextCentroids task.settings.k outputs mark.centroids = .ok next ∧
      Quality.shift mark.centroids next = .ok change ∧
      (criterion.ask (mark.epoch + 1) next (some mark.centroids)).1 = .ok stop ∧
      t = { next
            inertia := (outputs.map (·.inertia)).foldl (· + ·) 0
            labels := (outputs.map (·.labels)).flatten
            converged :=
              (criterion.ask (mark.epoch + 1) next (some mark.centroids)).2.hasConverged
                || (stop && mark.epoch + 1 < task.settings.maxRounds)
            stop } := by
  rw [turnAsking_eq_bind, bind_eq_ok]
  simp only [turnFrom_eq_ok, exists_and_left]

/-- Once there are next centroids, only the criterion can fail. -/
theorem turnAsking_of_ok {outputs : List (PartitionOutput α)} {next : Tensor α} {change : α}
    (ho : task.outputs mark.centroids = .ok outputs)
    (hn : nextCentroids task.settings.k outputs mark.centroids = .ok next)
    (hs : Quality.shift mark.centroids next = .ok change) :
    task.turnAsking criterion mark =
      let asked := criterion.ask (mark.epoch + 1) next (some mark.centroids)
      asked.1.map fun stop =>
        { next
          inertia := (outputs.map (·.inertia)).foldl (· + ·) 0
          labels := (outputs.map (·.labels)).flatten
          converged := asked.2.hasConverged || (stop && mark.epoch + 1 < task.settings.maxRounds)
          stop } := by
  simp only [turnAsking, ho, hn, hs, bind, Except.bind, ofOperands_ok]
  cases hstop : (criterion.ask (mark.epoch + 1) next (some mark.centroids)).1 with
  | ok stop => rfl
  | error e => rfl

/-- A criterion that answers as that of the settings does makes the same of a round, and still
    answers so afterwards. -/
theorem turn_of_turnAsking (hc : criterion.Follows task.settings)
    (ht : task.turnAsking criterion mark = .ok t) : task.turn mark = .ok t ∧
      (criterion.ask (mark.epoch + 1) t.next (some mark.centroids)).2.Follows task.settings := by
  obtain ⟨outputs, next, change, stop, ho, hn, hs, hstop, rfl⟩ := turnAsking_eq_ok.1 ht
  obtain ⟨hanswer, hconverged, hfollows⟩ := hc.ask hstop
  refine ⟨turnAsking_eq_ok.2 ⟨outputs, next, change, stop, ho, hn, hs, hanswer, ?_⟩, hfollows⟩
  rw [hconverged]

/-- What the criterion of the settings remembers makes no difference. -/
theorem turnAsking_of_turn (last : Option α) (ht : task.turn mark = .ok t) :
    task.turnAsking (.remembering task.settings last) mark = .ok t := by
  obtain ⟨outputs, next, change, stop, ho, hn, hs, hstop, rfl⟩ := turnAsking_eq_ok.1 ht
  rw [← Criterion.remembering_none] at hstop ⊢
  have hanswer := Criterion.ask_remembering_eq last none ▸ hstop
  refine turnAsking_eq_ok.2 ⟨outputs, next, change, stop, ho, hn, hs, hanswer, ?_⟩
  rw [Criterion.ask_remembering_of_ok last hstop]

/-- A run goes on only below its largest number of rounds. -/
theorem lt_maxRounds_of_turnFrom {outputs : List (PartitionOutput α)} {last : Option α}
    (ht : task.turnFrom (.remembering task.settings last) mark outputs = .ok t)
    (goesOn : t.stop = false) : mark.epoch + 1 < task.settings.maxRounds := by
  obtain ⟨next, change, stop, -, -, hs, rfl⟩ := turnFrom_eq_ok.1 ht
  dsimp only at goesOn
  rw [goesOn] at hs
  exact Criterion.lt_maxRounds_of_ask hs

theorem lt_maxRounds_of_turn (ht : task.turn mark = .ok t) (goesOn : t.stop = false) :
    mark.epoch + 1 < task.settings.maxRounds := by
  obtain ⟨outputs, -, ht⟩ := bind_eq_ok.1 ht
  rw [← Criterion.remembering_none] at ht
  exact lt_maxRounds_of_turnFrom ht goesOn

theorem Shaped.turnFrom (h : task.Shaped width mark.centroids)
    {outputs : List (PartitionOutput α)} (ht : task.turnFrom criterion mark outputs = .ok t) :
    task.Shaped width (mark.after t).centroids := by
  obtain ⟨next, change, stop, hn, -, -, rfl⟩ := turnFrom_eq_ok.1 ht
  exact ⟨(shape_nextCentroids hn).trans h.centroids, h.points⟩

theorem Shaped.turnAsking (h : task.Shaped width mark.centroids)
    (ht : task.turnAsking criterion mark = .ok t) :
    task.Shaped width (mark.after t).centroids := by
  obtain ⟨outputs, -, ht⟩ := bind_eq_ok.1 ht
  exact h.turnFrom ht

theorem Leads.shaped {mid : Mark α} (h : task.Leads mark mid)
    (hs : task.Shaped width mark.centroids) : task.Shaped width mid.centroids := by
  induction h with
  | here => exact hs
  | round _ turn _ ih => exact ih.turnAsking turn

/-! ## Rounds -/

/-- The rounds from a mark on, at most as many as the fuel. -/
def rounds (task : Task α) : Nat → Criterion α → Mark α → Outcome (Findings α)
  | 0, _, _ => .error .endless
  | fuel + 1, criterion, mark => do
    let t ← task.turnAsking criterion mark
    if t.stop then return mark.findings t
    else
      let asked := criterion.ask (mark.epoch + 1) t.next (some mark.centroids)
      task.rounds fuel asked.2 (mark.after t)

/-- All rounds from a mark on, as many as the criterion can want. -/
def course (task : Task α) (criterion : Criterion α) (mark : Mark α) : Outcome (Findings α) :=
  task.rounds ((criterion.horizon mark.epoch.toNat).getD Iteration.patience) criterion mark

variable {found : Findings α} {fuel : Nat}

theorem rounds_of_stop (ht : task.turnAsking criterion mark = .ok t) (stops : t.stop = true) :
    task.rounds (fuel + 1) criterion mark = .ok (mark.findings t) :=
  bind_eq_ok.2 ⟨t, ht, if_pos stops⟩

theorem rounds_of_goesOn (ht : task.turnAsking criterion mark = .ok t) (goesOn : t.stop = false) :
    task.rounds (fuel + 1) criterion mark
      = task.rounds fuel (criterion.ask (mark.epoch + 1) t.next (some mark.centroids)).2
          (mark.after t) := by
  rw [rounds, ht]
  exact if_neg (by simp [goesOn])

/-- With a criterion that answers as that of the settings does the rounds find what the task
    finishes with. -/
theorem finishes_of_rounds :
    ∀ {fuel : Nat} {criterion : Criterion α} {mark : Mark α}, criterion.Follows task.settings →
      task.rounds fuel criterion mark = .ok found → task.Finishes mark found
  | 0, _, _, _, h => nomatch h
  | fuel + 1, criterion, mark, hc, h => by
    obtain ⟨t, ht, h⟩ := bind_eq_ok.1 h
    obtain ⟨hturn, hasked⟩ := turn_of_turnAsking hc ht
    split at h
    · rename_i hstop
      cases pure_eq_ok.1 h
      exact .last hturn hstop
    · rename_i hstop
      exact .round hturn (Bool.eq_false_iff.2 hstop) (finishes_of_rounds hasked h)

/-- The criterion of the settings lets the task finish. -/
theorem Finishes.rounds_eq (h : task.Finishes mark found) :
    ∀ {fuel : Nat} (last : Option α), 0 < fuel →
      (task.settings.maxRounds : Int) - mark.epoch < fuel →
      task.rounds fuel (.remembering task.settings last) mark = .ok found := by
  induction h with
  | last turn stops =>
    intro fuel last hpos _
    obtain ⟨fuel, rfl⟩ := Nat.exists_eq_add_one_of_ne_zero (Nat.ne_of_gt hpos)
    exact rounds_of_stop (turnAsking_of_turn last turn) stops
  | @round mark t found turn goesOn rest ih =>
    intro fuel last hpos hfuel
    obtain ⟨fuel, rfl⟩ := Nat.exists_eq_add_one_of_ne_zero (Nat.ne_of_gt hpos)
    -- whatever the criterion remembers now, the rounds that are left are the same
    obtain ⟨last', hlast'⟩ := Criterion.exists_remembering_ask task.settings last (mark.epoch + 1)
      t.next mark.centroids
    have hlt := lt_maxRounds_of_turn turn goesOn
    have hepoch : (mark.after t).epoch = mark.epoch + 1 := rfl
    rw [rounds_of_goesOn (turnAsking_of_turn last turn) goesOn, hlast']
    exact ih last' (by omega) (by omega)

theorem Finishes.course_eq (h : task.Finishes mark found) (hepoch : 0 ≤ mark.epoch) :
    task.course (.ofSettings task.settings) mark = .ok found := by
  unfold course
  rw [← Criterion.remembering_none, Criterion.horizon_remembering, Option.getD_some]
  exact h.rounds_eq none (by omega) (by omega)

end Turn

end Task

end ClusterRounds
