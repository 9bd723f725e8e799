/-
  ClusterRounds.Proofs.Storage

  How the place of a checkpoint can fail. Something may stand in the way of every save, and
  what lies there may be such that it cannot be removed (`Slot.Refuses`). Neither is changed
  by a run: the obstacles stay the same, and there lies what lay there from the start or a
  snapshot (`Slot.Later`). So a failure of the place behind any number of saves is one that
  it had from the start.
-/

import ClusterRounds.Proofs.Rounds

namespace ClusterRounds

variable {α : Type}

/-! ## Failures of a place -/

/-- The failure of a save that something stands in the way of. -/
def Obstacle.failure : Obstacle → Failure
  | .nameless => .operand .unknownName
  | .unreachable fault | .irreplaceable fault => .file fault

namespace Slot

/-- How a place can make a run fail: by what stands in the way of a save, or because what lies there
    cannot be removed. -/
inductive Refuses (slot : Slot α) : Failure → Prop
  | save {n : Nat} {o : Obstacle} (obstacle : slot.obstacle n = some o) : Refuses slot o.failure
  | directory (held : slot.held = .directory) : Refuses slot (.file (.isDirectory slot.location))
  | outOfReach {fault : FileFault} (held : slot.held = .outOfReach fault) :
      Refuses slot (.file fault)

/-- The place later: what stands in the way is the same, and there lies what lay there or a
    snapshot. -/
structure Later (slot slot' : Slot α) : Prop where
  location_eq : slot'.location = slot.location
  obstacle_eq : slot'.obstacle = slot.obstacle
  held : slot'.held = slot.held ∨ ∃ z, slot'.held = .snapshot z

variable {slot slot' slot'' : Slot α} {e : Failure}

theorem Later.refl (slot : Slot α) : slot.Later slot := ⟨rfl, rfl, .inl rfl⟩

/-- A save leaves the place, or fails because of it. -/
theorem Later.save (h : slot.Later slot') {z : Snapshot α} {answer : Outcome Unit}
    (hsave : slot'.save z = (answer, slot'')) :
    slot.Later slot'' ∧ ∀ e, answer = .error e → slot.Refuses e := by
  unfold Slot.save at hsave
  cases hobstacle : slot'.obstacle slot'.saves with
  | none =>
    rw [hobstacle] at hsave
    cases hsave
    exact ⟨⟨h.location_eq, h.obstacle_eq, .inr ⟨z, rfl⟩⟩, fun e he => nomatch he⟩
  | some o =>
    rw [hobstacle] at hsave
    -- the save is counted, and what lies there stays
    have hfails : answer = .error o.failure ∧ slot.Later slot'' := by
      cases o <;> cases hsave <;> exact ⟨rfl, h.location_eq, h.obstacle_eq, h.held⟩
    refine ⟨hfails.2, fun e he => ?_⟩
    rw [hfails.1, Except.error.injEq] at he
    rw [h.obstacle_eq] at hobstacle
    exact he ▸ .save hobstacle

/-- What cannot be removed lay there from the start. -/
theorem Later.refuses_of_delete (h : slot.Later slot')
    (hdelete : slot'.delete = (.error e, slot'')) : slot.Refuses e := by
  unfold Slot.delete at hdelete
  split at hdelete
  · rename_i hheld
    cases hdelete
    rcases h.held with hsame | ⟨z, hz⟩
    · rw [h.location_eq]
      exact .directory (hsame ▸ hheld)
    · rw [hz] at hheld
      cases hheld
  · rename_i fault hheld
    cases hdelete
    rcases h.held with hsame | ⟨z, hz⟩
    · exact .outOfReach (hsame ▸ hheld)
    · rw [hz] at hheld
      cases hheld
  · cases hdelete

/-- A place that nothing stands in the way of refuses nothing. -/
theorem Usable.not_refuses (h : slot.Usable) : ¬ slot.Refuses e := by
  obtain ⟨_, hdelete⟩ := h.removable
  rintro (⟨hobstacle⟩ | hheld | hheld)
  · rw [h.writable] at hobstacle
    cases hobstacle
  · rw [Slot.delete, hheld] at hdelete
    cases hdelete
  · rw [Slot.delete, hheld] at hdelete
    cases hdelete

/-- It stays such a place. -/
theorem Usable.later (h : slot.Usable) (hlater : slot.Later slot') : slot'.Usable where
  writable := by
    rw [hlater.obstacle_eq]
    exact h.writable
  removable := by
    rcases hdelete : slot'.delete with ⟨answer, slot''⟩
    cases answer with
    | ok => exact ⟨_, rfl⟩
    | error e => exact absurd (hlater.refuses_of_delete hdelete) h.not_refuses

end Slot

end ClusterRounds
