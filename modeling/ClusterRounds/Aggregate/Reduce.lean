/-
  ClusterRounds.Aggregate.Reduce

  Bringing the partials of all partitions together: neighbours are merged in pairs,
  level by level, until one partial is left.
-/

import ClusterRounds.Aggregate.Basic

namespace ClusterRounds.Aggregate

variable {α : Type} [Add α]

/-- Merges neighbours; the last of an odd number stays as it is. -/
def mergePairs : List (Partial α) → Outcome (List (Partial α))
  | a :: b :: rest => do
    let merged ← a.merge b
    return merged :: (← mergePairs rest)
  | short => .ok short

theorem length_mergePairs : ∀ (level next : List (Partial α)), mergePairs level = .ok next →
    next.length = (level.length + 1) / 2
  | [], next, h => by cases h; simp
  | [a], next, h => by cases h; simp
  | a :: b :: rest, next, h => by
    unfold mergePairs at h
    cases hm : a.merge b with
    | error e => simp [hm, bind, Except.bind] at h
    | ok m =>
      cases hr : mergePairs rest with
      | error e => simp [hm, hr, bind, Except.bind] at h
      | ok r =>
        simp only [hm, hr, bind, Except.bind, pure, Except.pure, Except.ok.injEq] at h
        subst h
        simp [length_mergePairs rest r hr]
        omega

/-- The merge of all partials; of none it is empty. -/
def reduce (level : List (Partial α)) : Outcome (Partial α) :=
  match level with
  | [] => .ok []
  | [p] => .ok p
  | a :: b :: rest =>
    match _h : mergePairs (a :: b :: rest) with
    | .error e => .error e
    | .ok next => reduce next
termination_by level.length
decreasing_by
  have := length_mergePairs _ _ _h
  simp only [List.length_cons] at this ⊢
  omega

end ClusterRounds.Aggregate
