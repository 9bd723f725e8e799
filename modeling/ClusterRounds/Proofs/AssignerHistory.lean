/-
  ClusterRounds.Proofs.AssignerHistory

  One partition's operator over any series of calls. What it can do next is settled by
  the log of its calls alone: by the rows that were added, the centroid sets that were
  received since a boundary was passed, and the boundaries that were passed (`Tracks`).
  The rows may be held in pieces, as one array, or not at all if there are none; which
  of these it is depends on who has asked for them and shows nowhere.
-/

import ClusterRounds.Proofs.History
import ClusterRounds.Proofs.Labels
import ClusterRounds.Proofs.Course

namespace ClusterRounds
namespace Assigner

variable {α : Type}

/-! ## Calls and their log -/

inductive Call (α : Type) where
  | addPoints (points : Tensor α)
  | receive (centroids : Tensor α)
  | snapshot
  /-- The boundary of a round, when the measure has been asked so often. -/
  | boundary (epoch : Int) (asked : Nat)

inductive Answer (α : Type) where
  | taken
  | stored (snapshot : PartitionSnapshot α)
  | labelled (assignment : Assignment α)

/-- The answer to a call, and the operator afterwards. -/
def call [Scalar α] (m : Measure α) (a : Assigner α) : Call α → Outcome (Answer α) × Assigner α
  | .addPoints points =>
    match a.addPoints points with
    | .error e => (.error e, a)
    | .ok a => (.ok .taken, a)
  | .receive centroids =>
    match a.receive centroids with
    | .error e => (.error e, a)
    | .ok a => (.ok .taken, a)
  | .snapshot =>
    match a.snapshot with
    | .error e => (.error e, a)
    | .ok (stored, a) => (.ok (.stored stored), a)
  | .boundary epoch asked =>
    let fired := a.fire m asked epoch
    (fired.answer.map .labelled, fired.assigner)

/-- Points and centroids are of one width, and there is a centroid in every set. -/
def Call.Fits (width : Nat) : Call α → Prop
  | .addPoints points => ∃ n, points.atLeastMatrix.shape = [n, width]
  | .receive centroids => ∃ k, 0 < k ∧ centroids.shape = [k, width]
  | .snapshot | .boundary _ _ => True

/-- A call with its answer. -/
abbrev Entry (α : Type) := Call α × Outcome (Answer α)

/-- The boundary that was passed. -/
def passed? : Entry α → Option Int
  | (.boundary epoch _, .ok _) => some epoch
  | _ => none

/-- The boundaries that were passed, one after the other. -/
def passed (past : List (Entry α)) : List Int := past.filterMap passed?

/-- The rows that an entry adds. -/
def rowsOf : Entry α → List (List α)
  | (.addPoints points, .ok _) => points.atLeastMatrix.rowLists
  | _ => []

/-- All rows that were added, in their order. -/
def added (past : List (Entry α)) : List (List α) := past.flatMap rowsOf

/-- The sets that wait for a boundary after one more entry: a received one is another, and a boundary
    that is passed uses them up. -/
def waitAlso (sets : List (Tensor α)) : Entry α → List (Tensor α)
  | (.receive centroids, .ok _) => sets ++ [centroids]
  | (.boundary _ _, .ok _) => []
  | _ => sets

/-- The centroid sets that were received since a boundary was passed. -/
def waiting (past : List (Entry α)) : List (Tensor α) := past.foldl waitAlso []

/-- A boundary is refused if it is not later than the last one that was passed, or if not exactly one
    set waits for it. -/
def Refused (past : List (Entry α)) (epoch : Int) : Prop :=
  (∃ last, (passed past).getLast? = some last ∧ epoch ≤ last) ∨ (waiting past).length ≠ 1

section Log

variable {past : List (Entry α)} {entry : Entry α}

theorem passed_concat : passed (past ++ [entry]) = passed past ++ (passed? entry).toList := by
  unfold passed
  rw [List.filterMap_append]
  cases h : passed? entry <;> simp [h]

theorem added_concat : added (past ++ [entry]) = added past ++ rowsOf entry := by
  simp [added]

theorem waiting_concat : waiting (past ++ [entry]) = waitAlso (waiting past) entry := by
  simp [waiting]

end Log

/-! ## The rows that an operator holds -/

/-- The operator holds these rows: in pieces, or as one array that stands for all pieces and is one
    unless it has no entries. -/
inductive HoldsRows (width : Nat) (a : Assigner α) (rows : List (List α)) : Prop
  | pieces (joined : a.joined = none) (shapes : ∀ t ∈ a.chunks, ∃ n, t.shape = [n, width])
      (rows_eq : a.chunks.flatMap Tensor.rowLists = rows)
  | array (q : Tensor α) (n w : Nat) (joined : a.joined = some q) (shape : q.shape = [n, w])
      (suits : n = 0 ∨ w = width) (rows_eq : q.rowLists = rows)
      (chunks : a.chunks = if q.entries.isEmpty then [] else [q])

namespace HoldsRows

variable {width : Nat} {a b : Assigner α} {rows : List (List α)}

theorem congr (h : a.HoldsRows width rows) (hj : b.joined = a.joined) (hc : b.chunks = a.chunks) :
    b.HoldsRows width rows := by
  cases h with
  | pieces joined shapes rows_eq =>
    exact .pieces (hj.trans joined) (hc ▸ shapes) (hc ▸ rows_eq)
  | array q n w joined shape suits rows_eq chunks =>
    exact .array q n w (hj.trans joined) shape suits rows_eq (hc.trans chunks)

/-- With a coordinate, an array that is no piece has no rows, so the pieces are all there is. -/
theorem chunks (h : a.HoldsRows width rows) (hwidth : 0 < width) :
    (∀ t ∈ a.chunks, ∃ n, t.shape = [n, width]) ∧ a.chunks.flatMap Tensor.rowLists = rows := by
  cases h with
  | pieces _ shapes rows_eq => exact ⟨shapes, rows_eq⟩
  | array q n w _ shape suits rows_eq chunks =>
    rw [chunks]
    have hlength := Tensor.length_entries_of_shape shape
    by_cases he : q.entries.isEmpty
    · have hn : n = 0 := by
        rw [List.isEmpty_iff.1 he, List.length_nil] at hlength
        rcases suits with hn | rfl
        · exact hn
        · exact (Nat.mul_eq_zero.1 hlength.symm).resolve_right (Nat.ne_of_gt hwidth)
      rw [if_pos he, ← rows_eq, (Tensor.rowLists_eq_nil_iff shape).2 hn]
      simp
    · have hw : w = width := by
        refine suits.resolve_left fun hn => he ?_
        rw [hn, Nat.zero_mul] at hlength
        rw [List.eq_nil_of_length_eq_zero hlength]
        rfl
      rw [if_neg he]
      simp [shape, hw, rows_eq]

theorem addPoints (h : a.HoldsRows width rows) (hwidth : 0 < width) {t : Tensor α} {n : Nat}
    (ht : t.shape = [n, width]) :
    ({ a with chunks := a.chunks ++ [t], joined := none } : Assigner α).HoldsRows width
      (rows ++ t.rowLists) := by
  obtain ⟨shapes, rows_eq⟩ := h.chunks hwidth
  refine .pieces rfl (fun u hu => ?_) (by simp [rows_eq])
  rcases List.mem_append.1 hu with hu | hu
  · exact shapes u hu
  · exact ⟨n, by rw [List.mem_singleton.1 hu, ht]⟩

/-- Pieces of one width are stacked to one array with all their rows. -/
theorem stack_pieces {t : Tensor α} {rest : List (Tensor α)}
    (h : ∀ u ∈ t :: rest, ∃ n, u.shape = [n, width]) : ∃ q,
      Tensor.stack (t :: rest) = .ok q ∧ q.rowLists = (t :: rest).flatMap Tensor.rowLists ∧
      q.shape = [((t :: rest).flatMap Tensor.rowLists).length, width] := by
  have hrows : ∀ row ∈ (t :: rest).flatMap Tensor.rowLists, row.length = Shape.size [width] := by
    intro row hrow
    obtain ⟨u, hu, hrow⟩ := List.mem_flatMap.1 hrow
    obtain ⟨n', hu'⟩ := h u hu
    exact Tensor.length_of_mem_rowLists hu' hrow
  exact ⟨_, Tensor.stack_of_shapes (List.cons_ne_nil _ _) h, Tensor.rowLists_ofRowLists hrows,
    Tensor.shape_ofRowLists hrows⟩

/-- Whoever asks for the points gets one array with all rows, and the operator holds them still. -/
theorem readPoints (h : a.HoldsRows width rows) : ∃ q n w, q.shape = [n, w] ∧
    (n = 0 ∨ w = width) ∧ q.rowLists = rows ∧ a.readPoints = .ok (q, a.holding q) ∧
    (a.holding q).HoldsRows width rows := by
  cases h with
  | array q n w joined shape suits rows_eq chunks =>
    have hself : a.holding q = a := by rw [holding, ← joined, ← chunks]
    refine ⟨q, n, w, shape, suits, rows_eq, ?_, ?_⟩
    · simp [Assigner.readPoints, joined, hself]
    · rw [hself]
      exact .array q n w joined shape suits rows_eq chunks
  | pieces joined shapes rows_eq =>
    cases hchunks : a.chunks with
    | nil =>
      rw [hchunks] at rows_eq
      refine ⟨Tensor.noPoints, 0, 0, rfl, .inl rfl, rows_eq, ?_, ?_⟩
      · simp [Assigner.readPoints, joined, hchunks, holding, bind, Except.bind, pure, Except.pure]
      · exact .array Tensor.noPoints 0 0 rfl rfl (.inl rfl) rows_eq rfl
    | cons t rest =>
      rw [hchunks] at shapes rows_eq
      obtain ⟨q, hstack, hrows, hshape⟩ := stack_pieces shapes
      rw [rows_eq] at hrows hshape
      refine ⟨q, rows.length, width, hshape, .inr rfl, hrows, ?_, ?_⟩
      · simp [Assigner.readPoints, joined, hchunks, hstack, holding, bind, Except.bind, pure,
          Except.pure]
      · exact .array q rows.length width rfl hshape (.inr rfl) hrows rfl

end HoldsRows

/-! ## Where the operator stands -/

/-- The operator stands where the log says. -/
structure Tracks (width : Nat) (past : List (Entry α)) (a : Assigner α) : Prop where
  phase_eq : a.phase = .accumulating
  holds : a.HoldsRows width (added past)
  pending_eq : a.pending = waiting past
  sets : ∀ c ∈ waiting past, ∃ k, 0 < k ∧ c.shape = [k, width]
  lastEpoch_eq : a.lastEpoch = (passed past).getLast?
  increasing : (passed past).Pairwise (· < ·)

theorem tracks_fresh (width : Nat) (id : Int) : Tracks width [] (fresh id : Assigner α) where
  phase_eq := rfl
  holds := .pieces rfl (by simp [fresh]) rfl
  pending_eq := rfl
  sets := by simp [waiting]
  lastEpoch_eq := rfl
  increasing := .nil

section Steps

variable {width : Nat} {past : List (Entry α)} {entry : Entry α} {a b : Assigner α}
  {epoch : Int} {asked : Nat}

theorem Tracks.checkAlive (h : Tracks width past a) (delivery : Delivery) :
    a.checkAlive delivery = .ok () :=
  checkAlive_of_ne delivery (by rw [h.phase_eq]; decide)

/-- An entry by which no boundary is passed. -/
theorem Tracks.unpassed (h : Tracks width past a) (hp : passed? entry = none)
    (hphase : b.phase = a.phase) (hlast : b.lastEpoch = a.lastEpoch)
    (hholds : b.HoldsRows width (added past ++ rowsOf entry))
    (hpending : b.pending = waitAlso (waiting past) entry)
    (hsets : ∀ c ∈ waitAlso (waiting past) entry, ∃ k, 0 < k ∧ c.shape = [k, width]) :
    Tracks width (past ++ [entry]) b := by
  have hpassed : passed (past ++ [entry]) = passed past := by
    rw [passed_concat, hp, Option.toList_none, List.append_nil]
  refine ⟨hphase.trans h.phase_eq, ?_, ?_, ?_, ?_, ?_⟩
  · rw [added_concat]
    exact hholds
  · rw [waiting_concat]
    exact hpending
  · rw [waiting_concat]
    exact hsets
  · rw [hpassed, hlast, h.lastEpoch_eq]
  · rw [hpassed]
    exact h.increasing

/-- An entry that shows nothing leaves the operator where it stood, whichever form it holds its
    rows in. -/
theorem Tracks.silent (h : Tracks width past a) (entry : Entry α) (hp : passed? entry = none)
    (hr : rowsOf entry = []) (hw : waitAlso (waiting past) entry = waiting past)
    (hphase : b.phase = a.phase) (hlast : b.lastEpoch = a.lastEpoch)
    (hpending : b.pending = a.pending) (hholds : b.HoldsRows width (added past)) :
    Tracks width (past ++ [entry]) b := by
  refine h.unpassed hp hphase hlast ?_ ?_ ?_
  · rw [hr, List.append_nil]
    exact hholds
  · rw [hw, hpending, h.pending_eq]
  · rw [hw]
    exact h.sets

theorem Tracks.addPoints (h : Tracks width past a) (hwidth : 0 < width) {points : Tensor α}
    {n : Nat} (hpoints : points.atLeastMatrix.shape = [n, width]) :
    ∃ b, a.addPoints points = .ok b ∧
      Tracks width (past ++ [(.addPoints points, .ok .taken)]) b := by
  refine ⟨{ a with chunks := a.chunks ++ [points.atLeastMatrix], joined := none }, ?_, ?_⟩
  · rw [Assigner.addPoints, h.checkAlive]
    rfl
  · exact h.unpassed rfl rfl rfl (h.holds.addPoints hwidth hpoints) h.pending_eq h.sets

theorem Tracks.receive (h : Tracks width past a) {centroids : Tensor α} {k : Nat} (hk : 0 < k)
    (hcentroids : centroids.shape = [k, width]) :
    ∃ b, a.receive centroids = .ok b ∧
      Tracks width (past ++ [(.receive centroids, .ok .taken)]) b := by
  refine ⟨{ a with pending := a.pending ++ [centroids] }, ?_, ?_⟩
  · rw [Assigner.receive, h.checkAlive]
    rfl
  · refine h.unpassed rfl rfl rfl ?_ (congrArg (· ++ [centroids]) h.pending_eq) fun c hc => ?_
    · rw [show rowsOf _ = [] from rfl, List.append_nil]
      exact h.holds.congr rfl rfl
    · rcases List.mem_append.1 hc with hc | hc
      · exact h.sets c hc
      · exact ⟨k, hk, by rw [List.mem_singleton.1 hc, hcentroids]⟩

theorem Tracks.snapshot (h : Tracks width past a) : ∃ stored b, a.snapshot = .ok (stored, b) ∧
    Tracks width (past ++ [(.snapshot, .ok (.stored stored))]) b := by
  obtain ⟨q, n, w, -, -, -, hread, hholds⟩ := h.holds.readPoints
  refine ⟨⟨a.id, some q, a.pending, a.lastEpoch, .known a.phase⟩, a.holding q, ?_, ?_⟩
  · rw [Assigner.snapshot, hread]
    rfl
  · exact h.silent _ rfl rfl rfl rfl rfl rfl hholds

/-! ## The boundary -/

/-- The boundary of an operator that is alive: either one set waits and all boundaries behind it are
    earlier ones, or it is refused. -/
theorem soleSet_cases (halive : a.phase ≠ .terminated) (epoch : Int) :
    (∃ c, a.soleSet epoch = .ok c ∧ a.pending = [c] ∧
      ∀ last, a.lastEpoch = some last → last < epoch) ∨
    ((∃ fault, a.soleSet epoch = .error (.protocol fault)) ∧
      ((∃ last, a.lastEpoch = some last ∧ epoch ≤ last) ∨ a.pending.length ≠ 1)) := by
  by_cases hagain : ∃ last, a.lastEpoch = some last ∧ epoch ≤ last
  · obtain ⟨last, hlast, hle⟩ := hagain
    refine .inr ⟨⟨.firedAgain a.id epoch last, ?_⟩, .inl ⟨last, hlast, hle⟩⟩
    rw [soleSet, checkAlive_of_ne _ halive, hlast]
    exact if_pos hle
  · have hearlier : ∀ last, a.lastEpoch = some last → last < epoch := fun last hlast =>
      Int.not_le.1 fun hle => hagain ⟨last, hlast, hle⟩
    -- so the boundary behind does not matter, and only the number of sets is left to look at
    have hsole : a.soleSet epoch = ({ a with lastEpoch := none } : Assigner α).soleSet epoch := by
      unfold soleSet
      cases hlast : a.lastEpoch with
      | none => rfl
      | some last =>
        have hle : ¬ epoch ≤ last := Int.not_le.2 (hearlier last hlast)
        simp [checkAlive, hle, bind, Except.bind, pure, Except.pure]
    rw [hsole, soleSet, checkAlive, if_neg halive]
    rcases hsets : a.pending with _ | ⟨c, _ | ⟨d, rest⟩⟩
    · exact .inr ⟨⟨_, rfl⟩, .inr (by simp)⟩
    · exact .inl ⟨c, rfl, rfl, hearlier⟩
    · exact .inr ⟨⟨_, rfl⟩, .inr (by simp)⟩

/-- An operator that has passed a later boundary and has used up the set. -/
theorem Tracks.passes (h : Tracks width past a) (answer : Answer α)
    (hholds : b.HoldsRows width (added past))
    (hearlier : ∀ last, a.lastEpoch = some last → last < epoch) :
    Tracks width (past ++ [(.boundary epoch asked, .ok answer)])
      { b with pending := [], lastEpoch := some epoch, phase := .accumulating } := by
  have hpassed : passed (past ++ [(.boundary epoch asked, .ok answer)]) = passed past ++ [epoch] :=
    passed_concat
  refine ⟨rfl, ?_, ?_, ?_, ?_, ?_⟩
  · rw [added_concat, show rowsOf _ = [] from rfl, List.append_nil]
    exact hholds.congr rfl rfl
  · rw [waiting_concat]
    rfl
  · rw [waiting_concat]
    exact fun c hc => nomatch hc
  · rw [hpassed, List.getLast?_concat]
  · rw [hpassed, List.pairwise_append]
    refine ⟨h.increasing, List.pairwise_singleton _ _, fun e he e' he' => ?_⟩
    rw [List.mem_singleton.1 he']
    -- the last of the boundaries behind is the latest of them
    rw [h.lastEpoch_eq] at hearlier
    have hincreasing := h.increasing
    rcases List.eq_nil_or_concat (passed past) with hnil | ⟨earlier, last, hlast⟩
    · rw [hnil] at he
      cases he
    · rw [List.concat_eq_append] at hlast
      rw [hlast] at he hearlier hincreasing
      have hlt := hearlier last List.getLast?_concat
      rcases List.mem_append.1 he with he | he
      · exact Int.lt_trans ((List.pairwise_append.1 hincreasing).2.2 e he last (by simp)) hlt
      · rw [List.mem_singleton.1 he]
        exact hlt

section Fire

variable [Scalar α] {m : Measure α}

/-- A boundary that is refused is a fault in the protocol and changes nothing. -/
theorem Tracks.fire_refused (h : Tracks width past a) (hr : Refused past epoch) (asked : Nat) :
    (∃ fault, (a.fire m asked epoch).answer = .error (.protocol fault)) ∧
      (a.fire m asked epoch).assigner = a := by
  have halive : a.phase ≠ .terminated := by rw [h.phase_eq]; decide
  rcases soleSet_cases halive epoch with ⟨c, -, hpending, hearlier⟩ | ⟨⟨fault, hfault⟩, -⟩
  · rcases hr with ⟨last, hlast, hle⟩ | hcount
    · exact absurd hle (Int.not_le.2 (hearlier last (h.lastEpoch_eq.trans hlast)))
    · rw [← h.pending_eq, hpending] at hcount
      exact absurd rfl hcount
  · unfold fire
    rw [hfault]
    exact ⟨⟨fault, rfl⟩, rfl⟩

/-- A boundary that is not refused is passed: every row that was added gets its label, by the one
    set that was waiting. -/
theorem Tracks.fire_passed (h : Tracks width past a) (hm : m.Answers) (hwidth : 0 < width)
    (hr : ¬ Refused past epoch) (asked : Nat) : ∃ set points labels, waiting past = [set] ∧
      points.rowLists = added past ∧ m.nearest (asked + 1) points set = .ok labels ∧
      labels.length = (added past).length ∧ (∀ l ∈ labels, l < set.rowTotal) ∧
      (a.fire m asked epoch).answer = .ok ⟨epoch, labels.map fun (l : Nat) => (l : Int), points⟩ ∧
      ∀ answer, Tracks width (past ++ [(.boundary epoch asked, .ok answer)])
        (a.fire m asked epoch).assigner := by
  have halive : a.phase ≠ .terminated := by rw [h.phase_eq]; decide
  rcases soleSet_cases halive epoch with ⟨set, hsole, hpending, hearlier⟩ | ⟨-, hrefused⟩
  · obtain ⟨k, hk, hset⟩ := h.sets set (by rw [← h.pending_eq, hpending]; simp)
    have hholds : ({ a with phase := .firing } : Assigner α).HoldsRows width (added past) :=
      h.holds.congr rfl rfl
    obtain ⟨points, n, w, hshape, hsuits, hrows, hread, hheld⟩ := hholds.readPoints
    have hwidths : checkWidths a.id points set = .ok () := by
      refine checkWidths_of_suits (Tensor.rank_of_shape hshape) (Tensor.rank_of_shape hset)
        (.refl points) ?_ a.id
      rcases hsuits with rfl | rfl
      · exact .inl (Tensor.rowCount_of_shape hshape)
      · exact .inr (by rw [Tensor.innerShape_of_shape hshape, Tensor.innerShape_of_shape hset])
    have hcount : n = (added past).length := by rw [← hrows, Tensor.length_rowLists hshape]
    obtain ⟨labels, hlabels, hlength, hlt⟩ := (hm.at_width hwidth).nearest (asked + 1) hshape
      hset hsuits hk
    -- without rows the measure is not asked, so the count of its calls does not matter
    have hnearest : m.nearest (if points.rowTotal = 0 then asked else asked + 1) points set
        = .ok labels := by
      split
      · rename_i h0
        have h0 : points.rowCount = .ok 0 := by
          rw [Tensor.rowCount_of_shape hshape, ← h0, Tensor.rowTotal_of_shape hshape]
        rwa [m.nearest_of_no_rows _ _ h0, ← m.nearest_of_no_rows (asked + 1) set h0]
      · exact hlabels
    have hfire : a.fire m asked epoch = ⟨.ok ⟨epoch, labels.map fun (l : Nat) => (l : Int), points⟩,
        { a.holding points with pending := [], lastEpoch := some epoch, phase := .accumulating },
        if points.rowTotal = 0 then asked else asked + 1⟩ := by
      unfold fire
      simp only [hsole, hread, hwidths, hnearest]
      rfl
    refine ⟨set, points, labels, by rw [← h.pending_eq, hpending], hrows, hlabels,
      hlength.trans hcount, fun l hl => ?_, by rw [hfire], fun answer => ?_⟩
    · rw [Tensor.rowTotal_of_shape hset]
      exact hlt l hl
    · rw [hfire]
      exact h.passes answer (hheld.congr rfl rfl) hearlier
  · rw [h.pending_eq, h.lastEpoch_eq] at hrefused
    exact absurd hrefused hr

/-- Every call leaves the operator where the log says. -/
theorem Tracks.call (h : Tracks width past a) (hm : m.Answers) (hwidth : 0 < width) (c : Call α)
    (hc : c.Fits width) : Tracks width (past ++ [(c, (a.call m c).1)]) (a.call m c).2 := by
  cases c with
  | addPoints points =>
    obtain ⟨n, hpoints⟩ := hc
    obtain ⟨b, hok, hb⟩ := h.addPoints hwidth hpoints
    simpa only [Assigner.call, hok] using hb
  | receive centroids =>
    obtain ⟨k, hk, hcentroids⟩ := hc
    obtain ⟨b, hok, hb⟩ := h.receive hk hcentroids
    simpa only [Assigner.call, hok] using hb
  | snapshot =>
    obtain ⟨stored, b, hok, hb⟩ := h.snapshot
    simpa only [Assigner.call, hok] using hb
  | boundary epoch asked =>
    by_cases hr : Refused past epoch
    · obtain ⟨⟨fault, hfault⟩, hsame⟩ := h.fire_refused (m := m) hr asked
      simp only [Assigner.call, hfault, hsame]
      exact h.silent (_, .error _) rfl rfl rfl rfl rfl rfl h.holds
    · obtain ⟨_, _, _, -, -, -, -, -, hok, hpasses⟩ := h.fire_passed hm hwidth hr asked
      simp only [Assigner.call, hok]
      exact hpasses _

end Fire

end Steps

/-! ## Any series of calls -/

section Series

variable [Scalar α] {m : Measure α} {width : Nat}

theorem tracks_after (hm : m.Answers) (hwidth : 0 < width) (id : Int) {calls : List (Call α)}
    (hcalls : ∀ c ∈ calls, c.Fits width) :
    Tracks width (History.log (call m) (fresh id) calls) (History.after (call m) (fresh id) calls) :=
  History.invariant (I := Tracks width) (tracks_fresh width id)
    fun _ _ c hc h => h.call hm hwidth c (hcalls c hc)

/-- The protocol of the rounds in one partition, whatever is called in which order. A boundary is a
    fault in the protocol exactly when it is refused, and is passed otherwise; then every row that
    was added has its label, in order, by the one set that was received since the boundary before.
    The boundaries that are passed come in ascending order. -/
theorem boundaries_follow_protocol (hm : m.Answers) (hwidth : 0 < width) (id : Int)
    {calls : List (Call α)} (hcalls : ∀ c ∈ calls, c.Fits width) :
    (∀ past epoch asked answer later,
      History.log (call m) (fresh id) calls = past ++ (.boundary epoch asked, answer) :: later →
        ((∃ fault, answer = .error (.protocol fault)) ↔ Refused past epoch) ∧
        (¬ Refused past epoch → ∃ set points labels, waiting past = [set] ∧
          answer = .ok (.labelled ⟨epoch, labels.map fun (l : Nat) => (l : Int), points⟩) ∧
          points.rowLists = added past ∧ m.nearest (asked + 1) points set = .ok labels ∧
          labels.length = (added past).length ∧ ∀ l ∈ labels, l < set.rowTotal)) ∧
    (passed (History.log (call m) (fresh id) calls)).Pairwise (· < ·) := by
  refine ⟨fun past epoch asked answer later hlog => ?_, (tracks_after hm hwidth id hcalls).increasing⟩
  obtain ⟨before, rest, rfl, rfl, rfl⟩ := History.exists_of_log_eq hlog
  have htracks := tracks_after hm hwidth id fun c hc => hcalls c (List.mem_append_left _ hc)
  by_cases hr : Refused (History.log (call m) (fresh id) before) epoch
  · obtain ⟨⟨fault, hfault⟩, -⟩ := htracks.fire_refused (m := m) hr asked
    refine ⟨iff_of_true ⟨fault, ?_⟩ hr, fun h => absurd hr h⟩
    rw [call, hfault]
    rfl
  · obtain ⟨set, points, labels, hset, hrows, hnearest, hlength, hlt, hok, -⟩ :=
      htracks.fire_passed hm hwidth hr asked
    have hanswer : (call m (History.after (call m) (fresh id) before) (.boundary epoch asked)).1
        = .ok (.labelled ⟨epoch, labels.map fun (l : Nat) => (l : Int), points⟩) := by
      rw [call, hok]
      rfl
    rw [hanswer]
    refine ⟨iff_of_false (fun ⟨_, h⟩ => nomatch h) hr, fun _ => ?_⟩
    exact ⟨set, points, labels, hset, rfl, hrows, hnearest, hlength, hlt⟩

end Series

/-! ## A boundary that comes again -/

namespace Sample

def measure : Measure Rat := .euclidean "EuclideanDistanceMeasure"

/-- Two points, or two centroids. -/
def pair : Tensor Rat := .ofRowLists [1] [[0], [3]]

def first : List (Call Rat) := [.addPoints pair, .receive pair]

def again : List (Call Rat) := first ++ [.boundary 1 0, .receive pair]

end Sample

/-- The boundary is passed, and refused when it comes again although another set waits for it. -/
theorem boundaries_follow_protocol_again :
    (∃ q labels,
      (call Sample.measure (History.after (call Sample.measure) (fresh 0) Sample.first)
        (.boundary 1 0)).1 = .ok (.labelled ⟨1, labels, q⟩) ∧
      q.rowLists = [[0], [3]] ∧ labels.length = 2) ∧
    ∃ fault, (call Sample.measure (History.after (call Sample.measure) (fresh 0) Sample.again)
      (.boundary 1 1)).1 = .error (.protocol fault) := by
  have hm : Sample.measure.Answers := (Measure.rowByRow_euclidean _).answers
  have hfits : ∀ c ∈ Sample.again ++ [.boundary 1 1], c.Fits 1 := by
    simp only [Sample.again, Sample.first, List.cons_append, List.nil_append, List.forall_mem_cons]
    exact ⟨⟨2, rfl⟩, ⟨2, Nat.two_pos, rfl⟩, trivial, ⟨2, Nat.two_pos, rfl⟩, trivial,
      fun c hc => nomatch hc⟩
  obtain ⟨hboundary, -⟩ := boundaries_follow_protocol hm Nat.one_pos 0 hfits
  constructor
  · have hpassed : ¬ Refused (History.log (call Sample.measure) (fresh 0) Sample.first) 1 := by
      rintro (⟨last, hlast, -⟩ | hcount)
      · cases hlast
      · exact hcount rfl
    obtain ⟨set, q, labels, -, hanswer, hrows, -, hlength, -⟩ :=
      (hboundary _ 1 0 _ [(.receive Sample.pair, .ok .taken), (.boundary 1 1, _)] rfl).2 hpassed
    exact ⟨q, _, hanswer, hrows, by rw [List.length_map, hlength]; rfl⟩
  · refine (hboundary _ 1 1 _ [] (History.log_concat _ _ _)).1.2 (.inl ⟨1, ?_, Int.le_refl 1⟩)
    decide +kernel

end Assigner
end ClusterRounds
