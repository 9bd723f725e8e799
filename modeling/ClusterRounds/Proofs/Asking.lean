/-
  ClusterRounds.Proofs.Asking

  Criteria made of limits and tolerances, put together to any depth. Such a criterion answers as
  the list of its leaves does (`askAll_leaves`), and since all leaves hear the same questions, all
  tolerances remember the same change: that of the latest question which had centroids before
  (`run_of_composed`). So whether the criterion has converged is said of that question, be it the
  last one or not.
-/

import ClusterRounds.Proofs.History
import ClusterRounds.Proofs.Outcome
import ClusterRounds.Proofs.Stopping

namespace ClusterRounds
namespace Criterion

variable {α : Type}

/-! ## Leaves -/

mutual

/-- The criteria that one is made of, at whatever depth they stand. -/
def leaves : Criterion α → List (Criterion α)
  | .anyOf parts => leavesOfAll parts
  | c => [c]

def leavesOfAll : List (Criterion α) → List (Criterion α)
  | [] => []
  | part :: rest => leaves part ++ leavesOfAll rest

end

theorem leavesOfAll_eq (parts : List (Criterion α)) : leavesOfAll parts = parts.flatMap leaves := by
  induction parts with
  | nil => rfl
  | cons part rest ih => rw [leavesOfAll, ih, List.flatMap_cons]

section Flat

variable [Scalar α] (round : Int) (centroids : Tensor α) (previous : Option (Tensor α))

theorem askAll_append (front back : List (Criterion α)) :
    askAll round centroids previous (front ++ back) =
      match askAll round centroids previous front with
      | (.error e, front) => (.error e, front ++ back)
      | (.ok stop, front) =>
        ((askAll round centroids previous back).1.map (stop || ·),
          front ++ (askAll round centroids previous back).2) := by
  induction front with
  | nil =>
    rw [List.nil_append, askAll]
    rcases askAll round centroids previous back with ⟨others | others, back⟩ <;> simp [Except.map]
  | cons part front ih =>
    rw [List.cons_append, askAll, askAll, ih]
    rcases ask round centroids previous part with ⟨e | stop, part⟩
    · rfl
    · rcases askAll round centroids previous front with ⟨e | others, front⟩
      · rfl
      · rcases askAll round centroids previous back with ⟨e | last, back⟩ <;>
          simp [Except.map, Bool.or_assoc]

theorem askAll_singleton (c : Criterion α) :
    askAll round centroids previous [c] =
      ((ask round centroids previous c).1, [(ask round centroids previous c).2]) := by
  rw [askAll]
  rcases ask round centroids previous c with ⟨e | stop, c⟩ <;> simp [askAll, Except.map]

mutual

/-- A criterion answers as its leaves do in turn, and what becomes of it becomes of them. -/
theorem askAll_leaves : ∀ c : Criterion α,
    askAll round centroids previous c.leaves =
      ((ask round centroids previous c).1, (ask round centroids previous c).2.leaves)
  | .anyOf parts => by
    rw [leaves, askAll_leavesOfAll parts, ask]
    rfl
  | .rounds limit => askAll_singleton round centroids previous (.rounds limit)
  | .change tolerance last => by
    refine (askAll_singleton round centroids previous (.change tolerance last)).trans ?_
    cases previous with
    | none => rfl
    | some previous =>
      rw [ask]
      cases Quality.shift previous centroids <;> rfl
  | .scripted [] => askAll_singleton round centroids previous (.scripted [])
  | .scripted (answer :: rest) => askAll_singleton round centroids previous (.scripted (answer :: rest))
  | .breaking limit at_ => by
    refine (askAll_singleton round centroids previous (.breaking limit at_)).trans ?_
    rw [ask]
    split <;> rfl

theorem askAll_leavesOfAll : ∀ parts : List (Criterion α),
    askAll round centroids previous (leavesOfAll parts) =
      ((askAll round centroids previous parts).1,
        leavesOfAll (askAll round centroids previous parts).2)
  | [] => rfl
  | part :: rest => by
    rw [leavesOfAll, askAll_append, askAll_leaves part, askAll_leavesOfAll rest, askAll]
    rcases ask round centroids previous part with ⟨e | stop, part⟩ <;> rfl

end

end Flat

theorem anyConverged_append [Scalar α] (front back : List (Criterion α)) :
    anyConverged (front ++ back) = (anyConverged front || anyConverged back) := by
  induction front with
  | nil => rfl
  | cons part front ih => rw [List.cons_append, anyConverged, anyConverged, ih, Bool.or_assoc]

mutual

theorem anyConverged_leaves [Scalar α] : ∀ c : Criterion α, anyConverged c.leaves = c.hasConverged
  | .anyOf parts => by rw [leaves, hasConverged, anyConverged_leavesOfAll parts]
  | .rounds _ => Bool.or_false _
  | .change _ _ => Bool.or_false _
  | .scripted _ => Bool.or_false _
  | .breaking _ _ => Bool.or_false _

theorem anyConverged_leavesOfAll [Scalar α] : ∀ parts : List (Criterion α),
    anyConverged (leavesOfAll parts) = anyConverged parts
  | [] => rfl
  | part :: rest => by
    rw [leavesOfAll, anyConverged_append, anyConverged_leaves part, anyConverged_leavesOfAll rest,
      anyConverged]

end

theorem anyConverged_iff [Scalar α] {parts : List (Criterion α)} :
    anyConverged parts = true ↔ ∃ part ∈ parts, part.hasConverged = true := by
  induction parts with
  | nil => simp [anyConverged]
  | cons part rest ih => simp [anyConverged, ih]

/-! ## Limits and tolerances -/

/-- A criterion put together from limits, and from tolerances that have seen no change yet. -/
inductive Composed : Criterion α → Prop
  | rounds (limit : Quantity) : Composed (.rounds limit)
  | change (tolerance : Quantity) : Composed (.change tolerance none)
  | anyOf {parts : List (Criterion α)} (h : ∀ part ∈ parts, Composed part) : Composed (.anyOf parts)

/-- A limit, or a tolerance that remembers the given change. -/
inductive Leaf (last : Option α) : Criterion α → Prop
  | rounds (limit : Quantity) : Leaf last (.rounds limit)
  | change (tolerance : Quantity) : Leaf last (.change tolerance last)

theorem Composed.leaf {c : Criterion α} (h : c.Composed) : ∀ leaf ∈ c.leaves, Leaf none leaf := by
  induction h with
  | rounds limit => exact List.forall_mem_singleton.2 (.rounds limit)
  | change tolerance => exact List.forall_mem_singleton.2 (.change tolerance)
  | anyOf _ ih =>
    intro leaf hleaf
    rw [leaves, leavesOfAll_eq] at hleaf
    obtain ⟨part, hpart, hleaf⟩ := List.mem_flatMap.1 hleaf
    exact ih part hpart leaf hleaf

/-- The tolerances that a criterion is made of. -/
def tolerances (c : Criterion α) : List Quantity :=
  c.leaves.filterMap fun
    | .change tolerance _ => some tolerance
    | _ => none

theorem mem_tolerances {c : Criterion α} {t : Quantity} :
    t ∈ c.tolerances ↔ ∃ last, .change t last ∈ c.leaves := by
  unfold tolerances
  rw [List.mem_filterMap]
  constructor
  · rintro ⟨leaf, hleaf, h⟩
    split at h
    · cases h
      exact ⟨_, hleaf⟩
    · cases h
  · rintro ⟨last, hleaf⟩
    exact ⟨_, hleaf, rfl⟩

/-- The criterion as it is if it remembers the given change. -/
def remember (last : Option α) : Criterion α → Criterion α
  | .change tolerance _ => .change tolerance last
  | c => c

theorem Leaf.remember {last : Option α} {c : Criterion α} (h : Leaf last c) (last' : Option α) :
    Leaf last' (c.remember last') := by
  cases h with
  | rounds limit => exact .rounds limit
  | change tolerance => exact .change tolerance

/-! ## One question -/

/-- What a criterion is asked about: a round, its centroids, and those before it if there are any. -/
structure Question (α : Type) where
  round : Int
  centroids : Tensor α
  previous : Option (Tensor α)

namespace Question

/-- There are coordinates, and the centroids before have as many. -/
def Fits (q : Question α) : Prop :=
  q.centroids.entries ≠ [] ∧ ∀ previous, q.previous = some previous → q.centroids.shape = previous.shape

variable [Scalar α]

/-- How far the centroids have moved. -/
def moved? (q : Question α) : Option α :=
  q.previous.bind fun previous => (Quality.shift previous q.centroids).toOption

theorem moved?_of_shift {q : Question α} {previous : Tensor α} {moved : α}
    (h : q.previous = some previous) (hmoved : Quality.shift previous q.centroids = .ok moved) :
    q.moved? = some moved := by
  rw [moved?, h, Option.bind_some, hmoved]
  rfl

theorem moved?_of_some {q : Question α} (hq : q.Fits) {previous : Tensor α}
    (h : q.previous = some previous) :
    ∃ moved, Quality.shift previous q.centroids = .ok moved ∧ q.moved? = some moved := by
  obtain ⟨moved, hmoved⟩ := Quality.exists_shift_of_shape (hq.2 previous h) hq.1
  exact ⟨moved, hmoved, moved?_of_shift h hmoved⟩

/-- Does a limit or a tolerance stop the run here? -/
def stops (q : Question α) : Criterion α → Bool
  | .rounds limit => limit.leInt q.round
  | .change tolerance _ => q.moved?.any (Scalar.isBelow · tolerance)
  | _ => false

end Question

/-- The answer to a question, and the criterion afterwards. -/
def consult [Scalar α] (c : Criterion α) (q : Question α) : Outcome Bool × Criterion α :=
  c.ask q.round q.centroids q.previous

section Asking

variable [Scalar α] {last : Option α} {q : Question α}

theorem ask_leaf {c : Criterion α} (h : Leaf last c) (hq : q.Fits) :
    c.ask q.round q.centroids q.previous = (.ok (q.stops c), c.remember (q.moved?.or last)) := by
  cases h with
  | rounds limit => rfl
  | change tolerance =>
    cases hprevious : q.previous with
    | none => simp [ask, Question.stops, Question.moved?, remember, hprevious]
    | some previous =>
      obtain ⟨moved, hshift, hmoved⟩ := Question.moved?_of_some hq hprevious
      simp [ask, Question.stops, remember, hshift, hmoved]

theorem askAll_of_leaf {parts : List (Criterion α)} (h : ∀ part ∈ parts, Leaf last part)
    (hq : q.Fits) :
    askAll q.round q.centroids q.previous parts =
      (.ok (parts.any q.stops), parts.map (remember (q.moved?.or last))) := by
  induction parts with
  | nil => rfl
  | cons part rest ih =>
    obtain ⟨hpart, hrest⟩ := List.forall_mem_cons.1 h
    rw [askAll, ask_leaf hpart hq, ih hrest]
    rfl

/-- Each leaf stops the run by itself, and remembers how far the centroids have moved if they have
    moved at all. -/
theorem consult_of_leaf {c : Criterion α} (h : ∀ leaf ∈ c.leaves, Leaf last leaf) (hq : q.Fits) :
    (c.consult q).1 = .ok (c.leaves.any q.stops) ∧
      (c.consult q).2.leaves = c.leaves.map (remember (q.moved?.or last)) := by
  have hflat := askAll_leaves q.round q.centroids q.previous c
  rw [askAll_of_leaf h hq] at hflat
  obtain ⟨hanswer, hleaves⟩ := Prod.mk.inj hflat
  exact ⟨hanswer.symm, hleaves.symm⟩

end Asking

/-! ## One question after another -/

section Run

variable [Scalar α]

/-- How far the centroids have moved when they last have. -/
def latest (asked : List (Question α)) : Option α :=
  asked.foldl (fun last q => q.moved?.or last) none

theorem latest_concat (asked : List (Question α)) (q : Question α) :
    latest (asked ++ [q]) = q.moved?.or (latest asked) := by
  rw [latest, List.foldl_concat, latest]

/-- Questions without centroids before leave the change to those in front of them. -/
theorem latest_append_of_none {asked later : List (Question α)}
    (h : ∀ q ∈ later, q.previous = none) : latest (asked ++ later) = latest asked := by
  induction later using List.reverseRecOn with
  | nil => rw [List.append_nil]
  | append_singleton later q ih =>
    have hq : q.moved? = none := by rw [Question.moved?, h q (by simp), Option.bind_none]
    rw [← List.append_assoc, latest_concat, hq, Option.none_or]
    exact ih fun q hq => h q (List.mem_append_left _ hq)

/-- The latest change is that of one question, behind which there were no centroids before. -/
theorem exists_of_latest {asked : List (Question α)} {moved : α} (hfits : ∀ q ∈ asked, q.Fits)
    (h : latest asked = some moved) : ∃ past q later previous,
      asked = past ++ q :: later ∧ q.previous = some previous ∧
        (∀ r ∈ later, r.previous = none) ∧ Quality.shift previous q.centroids = .ok moved := by
  induction asked using List.reverseRecOn with
  | nil => cases h
  | append_singleton asked q ih =>
    rw [latest_concat] at h
    cases hprevious : q.previous with
    | none =>
      rw [Question.moved?, hprevious, Option.bind_none, Option.none_or] at h
      obtain ⟨past, r, later, previous, rfl, hr, hlater, hshift⟩ :=
        ih (fun r hr => hfits r (List.mem_append_left _ hr)) h
      refine ⟨past, r, later ++ [q], previous, by simp, hr, ?_, hshift⟩
      simpa [or_imp, forall_and, hprevious] using hlater
    | some previous =>
      obtain ⟨moved', hshift, hmoved⟩ := Question.moved?_of_some (hfits q (by simp)) hprevious
      rw [hmoved, Option.some_or, Option.some.injEq] at h
      exact ⟨asked, q, [], previous, rfl, hprevious, nofun, h ▸ hshift⟩

variable {c : Criterion α}

theorem any_stops_remember (q : Question α) (last : Option α) (parts : List (Criterion α)) :
    (parts.map (remember last)).any q.stops = parts.any q.stops := by
  rw [List.any_map]
  refine congrArg parts.any (funext fun part => ?_)
  cases part <;> rfl

/-- After any questions all leaves remember the latest change, and each answer was that of the
    leaves to the one question. -/
theorem run_of_composed (hc : c.Composed) {asked : List (Question α)}
    (hfits : ∀ q ∈ asked, q.Fits) :
    (∀ entry ∈ History.log consult c asked, entry.2 = .ok (c.leaves.any entry.1.stops)) ∧
      (History.after consult c asked).leaves = c.leaves.map (remember (latest asked)) := by
  have hremember (last : Option α) : ∀ leaf ∈ c.leaves.map (remember last), Leaf last leaf := by
    intro leaf hleaf
    obtain ⟨leaf, hmem, rfl⟩ := List.mem_map.1 hleaf
    exact (hc.leaf leaf hmem).remember last
  induction asked using List.reverseRecOn with
  | nil =>
    refine ⟨fun _ h => absurd h List.not_mem_nil, ?_⟩
    show c.leaves = c.leaves.map (remember none)
    refine ((List.map_congr_left fun leaf hleaf => ?_).trans (List.map_id _)).symm
    cases hc.leaf leaf hleaf <;> rfl
  | append_singleton asked q ih =>
    obtain ⟨hanswers, hleaves⟩ := ih fun r hr => hfits r (List.mem_append_left _ hr)
    obtain ⟨hanswer, hnext⟩ := consult_of_leaf (c := History.after consult c asked)
      (hleaves ▸ hremember (latest asked)) (hfits q (by simp))
    rw [History.log_concat, History.after_concat, latest_concat]
    refine ⟨fun entry hentry => ?_, ?_⟩
    · rcases List.mem_append.1 hentry with hentry | hentry
      · exact hanswers entry hentry
      · obtain rfl := List.mem_singleton.1 hentry
        rw [hanswer, hleaves, any_stops_remember]
    · rw [hnext, hleaves, List.map_map]
      refine List.map_congr_left fun leaf _ => ?_
      cases leaf <;> rfl

/-- It has converged exactly if the latest change is below one of its tolerances. -/
theorem converged_iff_latest (hc : c.Composed) {asked : List (Question α)}
    (hfits : ∀ q ∈ asked, q.Fits) :
    (History.after consult c asked).hasConverged = true ↔
      ∃ moved, latest asked = some moved ∧ ∃ t ∈ c.tolerances, Scalar.isBelow moved t = true := by
  rw [← anyConverged_leaves, (run_of_composed hc hfits).2, anyConverged_iff]
  constructor
  · rintro ⟨_, hmem, hconverged⟩
    obtain ⟨leaf, hleaf, rfl⟩ := List.mem_map.1 hmem
    cases hc.leaf leaf hleaf with
    | rounds limit => cases hconverged
    | change tolerance =>
      cases hlatest : latest asked with
      | none =>
        rw [hlatest] at hconverged
        cases hconverged
      | some moved =>
        rw [hlatest] at hconverged
        exact ⟨moved, rfl, tolerance, mem_tolerances.2 ⟨none, hleaf⟩, hconverged⟩
  · rintro ⟨moved, hlatest, t, ht, hbelow⟩
    obtain ⟨last, hleaf⟩ := mem_tolerances.1 ht
    exact ⟨_, List.mem_map_of_mem hleaf, by rwa [hlatest]⟩

/-- A criterion put together from limits and tolerances answers every question. It says that it has
    converged exactly if, when it was last asked about centroids that had others before them, they
    had moved by less than one of its tolerances. So if this was the last question of all, then the
    answer to that question was to stop; and if there were no centroids before in the last
    question, then what it says is as it was before that question. -/
theorem converged_tells_latest_change (hc : c.Composed) {asked : List (Question α)}
    (hfits : ∀ q ∈ asked, q.Fits) :
    (∀ entry ∈ History.log consult c asked, ∃ stop, entry.2 = .ok stop) ∧
    ((History.after consult c asked).hasConverged = true ↔
      ∃ past q later previous moved tolerance,
        asked = past ++ q :: later ∧ q.previous = some previous ∧
        (∀ r ∈ later, r.previous = none) ∧
        Quality.shift previous q.centroids = .ok moved ∧
        tolerance ∈ c.tolerances ∧ Scalar.isBelow moved tolerance = true) ∧
    (∀ past q previous, asked = past ++ [q] → q.previous = some previous →
      (History.after consult c asked).hasConverged = true →
        ((History.after consult c past).consult q).1 = .ok true ∧
        ∃ moved, Quality.shift previous q.centroids = .ok moved ∧
          ∃ tolerance ∈ c.tolerances, Scalar.isBelow moved tolerance = true) ∧
    (∀ past q, asked = past ++ [q] → q.previous = none →
      (History.after consult c asked).hasConverged
        = (History.after consult c past).hasConverged) := by
  refine ⟨fun entry hentry => ⟨_, (run_of_composed hc hfits).1 entry hentry⟩, ?_, ?_, ?_⟩
  · rw [converged_iff_latest hc hfits]
    constructor
    · rintro ⟨moved, hlatest, t, ht, hbelow⟩
      obtain ⟨past, q, later, previous, heq, hprevious, hlater, hshift⟩ :=
        exists_of_latest hfits hlatest
      exact ⟨past, q, later, previous, moved, t, heq, hprevious, hlater, hshift, ht, hbelow⟩
    · rintro ⟨past, q, later, previous, moved, t, rfl, hprevious, hlater, hshift, ht, hbelow⟩
      refine ⟨moved, ?_, t, ht, hbelow⟩
      rw [List.append_cons, latest_append_of_none hlater, latest_concat,
        Question.moved?_of_shift hprevious hshift, Option.some_or]
  · rintro past q previous rfl hprevious hconverged
    obtain ⟨moved, hlatest, t, ht, hbelow⟩ := (converged_iff_latest hc hfits).1 hconverged
    obtain ⟨moved', hshift, hmoved⟩ := Question.moved?_of_some (hfits q (by simp)) hprevious
    rw [latest_concat, hmoved, Option.some_or, Option.some.injEq] at hlatest
    subst hlatest
    refine ⟨?_, moved', hshift, t, ht, hbelow⟩
    -- the leaf that found so small a change has asked for the end
    obtain ⟨last, hleaf⟩ := mem_tolerances.1 ht
    have hstops : q.stops (.change t last) = true := by
      rw [Question.stops, hmoved]
      exact hbelow
    refine ((run_of_composed hc hfits).1 (q, _) (by rw [History.log_concat]; simp)).trans ?_
    exact congrArg Except.ok (List.any_eq_true.2 ⟨_, hleaf, hstops⟩)
  · rintro past q rfl hprevious
    rw [Bool.eq_iff_iff, converged_iff_latest hc hfits,
      converged_iff_latest hc fun r hr => hfits r (List.mem_append_left _ hr),
      latest_append_of_none (List.forall_mem_singleton.2 hprevious)]

end Run

/-! ## A question without centroids before -/

namespace Sample

/-- Five rounds at most, or centroids that move by less than one. -/
def either : Criterion Rat := .anyOf [.rounds (.int 5), .anyOf [.change (.int 1) none]]

def one : Tensor Rat := .ofRowLists [1] [[1]]

/-- The centroid is where it was. -/
def settled : Question Rat := ⟨1, one, some one⟩

/-- Nothing is known of the centroid before. -/
def bare : Question Rat := ⟨5, one, none⟩

theorem composed_either : either.Composed :=
  .anyOf <| List.forall_mem_cons.2 ⟨.rounds _, List.forall_mem_singleton.2 <|
    .anyOf <| List.forall_mem_singleton.2 <| .change _⟩

theorem fits_settled : settled.Fits := ⟨nofun, fun _ h => by cases h; rfl⟩

theorem fits_bare : bare.Fits := ⟨nofun, nofun⟩

end Sample

/-- A centroid that stays has converged, and the run is to stop. -/
theorem converged_tells_latest_change_settled :
    (Sample.either.consult Sample.settled).2.hasConverged = true ∧
      (Sample.either.consult Sample.settled).1 = .ok true ∧
      ∃ tolerance ∈ Sample.either.tolerances, Scalar.isBelow (0 : Rat) tolerance = true := by
  have hconverged : (Sample.either.consult Sample.settled).2.hasConverged = true := by decide +kernel
  have hunmoved : Quality.shift Sample.one Sample.one = .ok 0 := by with_unfolding_all rfl
  obtain ⟨-, -, hlast, -⟩ := converged_tells_latest_change Sample.composed_either
    (List.forall_mem_singleton.2 Sample.fits_settled)
  obtain ⟨hanswer, moved, hshift, hbelow⟩ := hlast [] Sample.settled Sample.one rfl rfl hconverged
  obtain rfl : 0 = moved := Except.ok.inj (hunmoved.symm.trans hshift)
  exact ⟨hconverged, hanswer, hbelow⟩

/-- At the limit of the rounds, where nothing is known of the centroids before, the run stops for the
    limit. The criterion has converged all the same. -/
theorem limit_passes_for_convergence :
    Sample.either.Composed ∧ (∀ q ∈ [Sample.settled, Sample.bare], q.Fits) ∧
    (History.log consult Sample.either [Sample.settled, Sample.bare]).map (·.2) = [.ok true, .ok true] ∧
    (History.after consult Sample.either [Sample.settled, Sample.bare]).hasConverged = true ∧
    Sample.bare.previous = none := by
  refine ⟨Sample.composed_either, ?_, by with_unfolding_all rfl, by decide +kernel, rfl⟩
  exact List.forall_mem_cons.2 ⟨Sample.fits_settled, List.forall_mem_singleton.2 Sample.fits_bare⟩

end Criterion
end ClusterRounds
