/-
  ClusterRounds.Phase

  The phases of a partition's operator, and the label under which a snapshot keeps
  one: a label can also be a text that names no phase.
-/

namespace ClusterRounds

inductive Phase where
  /-- Takes points and centroids. -/
  | accumulating
  | firing
  /-- Has released its points for good. -/
  | terminated
deriving DecidableEq, Repr, Inhabited

namespace Phase

def name : Phase → String
  | accumulating => "accumulating"
  | firing => "round_firing"
  | terminated => "terminated"

def shown : Phase → String
  | accumulating => "AssignerState.ACCUMULATING"
  | firing => "AssignerState.ROUND_FIRING"
  | terminated => "AssignerState.TERMINATED"

def ofName? (s : String) : Option Phase :=
  [accumulating, firing, terminated].find? (·.name = s)

theorem ofName?_name (p : Phase) : ofName? p.name = some p := by cases p <;> rfl

end Phase

/-- A stored phase: one that is known, or some other text. -/
inductive PhaseLabel where
  | known (p : Phase)
  | other (text : String)
deriving DecidableEq, Repr

namespace PhaseLabel

def ofName (s : String) : PhaseLabel := (Phase.ofName? s).elim (other s) known

def name : PhaseLabel → String
  | known p => p.name
  | other text => text

def shown : PhaseLabel → String
  | known p => p.shown
  | other text => text

end PhaseLabel

end ClusterRounds
