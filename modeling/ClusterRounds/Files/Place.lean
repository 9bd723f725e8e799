/-
  ClusterRounds.Files.Place

  The place of a checkpoint in a tree of files. A place taken out of a tree knows what
  is there and what would keep a save from being completed; put back, it leaves its
  traces in the tree.
-/

import ClusterRounds.Files.Tree
import ClusterRounds.Settings.Argument
import ClusterRounds.Slot

namespace ClusterRounds.Files

/-- Where checkpoints are saved, and after every how many rounds, as named by the arguments. -/
def checkpointing (args : Arguments) : Outcome (Path × Quantity) := do
  args.onlyKnown ["path", "every_n_rounds"]
  match args.lookup "path" with
  | some (.text location) =>
    return (.ofText location, ← atLeastOne "every_n_rounds" (args.get "every_n_rounds" (.int 1)))
  | _ => throw (.operand .wrongKind)

/-- The path under which a save writes first. -/
def stagingPath (p : Path) : Path := p.extend ".tmp"

def heldAt (t : Tree) (p : Path) : Held Float :=
  match t.isThere p.text with
  | .error fault => .outOfReach fault
  | .ok false => .nothing
  | .ok true =>
    match (t.find p.text).1 with
    | .file (.checkpoint s) => .snapshot s
    | .file .foreign => .foreign
    | .file _ => .unreadable
    | _ => .directory

/-- What keeps every save at a path from being completed, if anything does. -/
def obstacleAt (t : Tree) (p : Path) : Option Obstacle :=
  match t.makeDirectories p.parent with
  | .error fault => some (.unreachable fault)
  | .ok t =>
    if p.parts.isEmpty then some .nameless else
    let staging := (stagingPath p).text
    match t.write staging .foreign with
    | .error fault => some (.unreachable fault)
    | .ok _ =>
      if p.name = ".." then some (.irreplaceable (.busy staging p.text)) else
      match (t.find p.text).1 with
      | .directory => some (.irreplaceable (.overDirectory staging p.text))
      | _ => none

def slotAt (t : Tree) (p : Path) : Slot Float where
  location := p.text
  held := heldAt t p
  staged := none
  saves := 0
  obstacle := fun _ => obstacleAt t p

/-- A tree with an object at a path whose directory is made if need be. -/
def withFile? (t : Tree) (p : Path) (c : Content) : Except FileFault Tree := do
  (← t.makeDirectories p.parent).write p.text c

/-- A tree with an object at a path; without change if it cannot be there. -/
def withFile (t : Tree) (p : Path) (c : Content) : Tree := ((withFile? t p c).toOption).getD t

/-- The tree after a place has been used: directories are made by the first save, and beside the
    place stands a snapshot only if it could not be put there. -/
def afterUse (t : Tree) (p : Path) (slot : Slot Float) : Tree :=
  let staging := stagingPath p
  let t :=
    if slot.saves = 0 then t
    else (((t.makeDirectories p.parent).toOption).getD t).remove staging.text
  let t := slot.staged.elim t fun s => withFile t staging (.checkpoint s)
  match slot.held with
  | .snapshot s => withFile t p (.checkpoint s)
  | .nothing => t.remove p.text
  | _ => t

end ClusterRounds.Files
