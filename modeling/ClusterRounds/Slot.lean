/-
  ClusterRounds.Slot

  The place of one checkpoint. A save first writes the snapshot beside the place and
  then puts it there in one step, so the place holds either the snapshot before or the
  one after, whatever happens in between; obstacles say at which saves something does.
-/

import ClusterRounds.Snapshot

namespace ClusterRounds

inductive Held (α : Type) where
  | nothing
  | snapshot (s : Snapshot α)
  /-- Contents that cannot be read back. -/
  | unreadable
  /-- Contents of another kind. -/
  | foreign
  | directory
  /-- It cannot even be told whether there is anything. -/
  | outOfReach (fault : FileFault)

/-- What keeps a save from being completed. -/
inductive Obstacle where
  /-- The place has no name that a file beside it could be named after. -/
  | nameless
  /-- Nothing can be written there. -/
  | unreachable (fault : FileFault)
  /-- The snapshot is written, but cannot be put in its place. -/
  | irreplaceable (fault : FileFault)
deriving DecidableEq, Repr

structure Slot (α : Type) where
  location : String
  held : Held α
  /-- The snapshot that has been written beside the place and not been put there. -/
  staged : Option (Snapshot α)
  saves : Nat
  /-- What stands in the way of a save, by its number. -/
  obstacle : Nat → Option Obstacle

namespace Slot

variable {α : Type}

def empty (location : String) : Slot α := ⟨location, .nothing, none, 0, fun _ => none⟩

def save (slot : Slot α) (s : Snapshot α) : Outcome Unit × Slot α :=
  let tried := { slot with saves := slot.saves + 1 }
  match slot.obstacle slot.saves with
  | some .nameless => (.error (.operand .unknownName), tried)
  | some (.unreachable fault) => (.error (.file fault), tried)
  | some (.irreplaceable fault) => (.error (.file fault), { tried with staged := some s })
  | none => (.ok (), { tried with held := .snapshot s, staged := none })

/-- The snapshot at the place; none if there is nothing. -/
def retrieve (slot : Slot α) : Outcome (Option (Snapshot α)) :=
  match slot.held with
  | .nothing => .ok none
  | .snapshot s => .ok (some s)
  | .unreadable | .directory => .error (.recovery (.unreadable slot.location))
  | .foreign => .error (.recovery (.notASnapshot slot.location))
  | .outOfReach fault => .error (.file fault)

/-- A snapshot that a run can take up. -/
def load (slot : Slot α) : Outcome (Snapshot α) := do
  let some s ← slot.retrieve | throw (.recovery (.notFound slot.location))
  s.validate
  return s

def delete (slot : Slot α) : Outcome Unit × Slot α :=
  match slot.held with
  | .directory => (.error (.file (.isDirectory slot.location)), slot)
  | .outOfReach fault => (.error (.file fault), slot)
  | _ => (.ok (), { slot with held := .nothing })

def isOccupied (slot : Slot α) : Bool :=
  match slot.held with
  | .nothing | .outOfReach _ => false
  | _ => true

/-! ## Saving and reading back -/

theorem retrieve_save (slot : Slot α) (s : Snapshot α) (h : slot.obstacle slot.saves = none) :
    (slot.save s).2.retrieve = .ok (some s) := by
  simp [save, h, retrieve]

/-- A save that fails leaves what was there. -/
theorem held_save_of_obstacle (slot : Slot α) (s : Snapshot α) (o : Obstacle)
    (h : slot.obstacle slot.saves = some o) : (slot.save s).2.held = slot.held := by
  cases o <;> simp [save, h]

end Slot

end ClusterRounds
