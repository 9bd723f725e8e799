/-
  ClusterRounds.Measure.Registry

  The measures that can be asked for by name. Registering a name again replaces the
  measure; the list of names is in order of code points.
-/

import ClusterRounds.Measure.Kinds

namespace ClusterRounds

structure Registry (α : Type) where
  entries : List (String × Measure α)

namespace Registry

variable {α : Type}

/-- Only the Euclidean measure is known from the start. -/
def standard [Scalar α] : Registry α :=
  ⟨[("euclidean", .euclidean "EuclideanDistanceMeasure")]⟩

/-- Puts a measure under a name, which must not be empty. -/
def register (r : Registry α) (name : String) (m : Measure α) : Outcome (Registry α) :=
  if name.isEmpty then .error (.configuration (.unnamedMeasure m.className))
  else .ok ⟨(name, m) :: r.entries.filter (·.1 ≠ name)⟩

/-- All names, in order of code points. -/
def names (r : Registry α) : List String :=
  (r.entries.map (·.1)).mergeSort fun a b => !(decide (b < a))

def get (r : Registry α) (name : Value) : Outcome (Measure α) :=
  let found :=
    match name with
    | .text s => r.entries.lookup s
    | _ => none
  match found with
  | some m => .ok m
  | none => .error (.configuration (.unknownMeasure name r.names))

end Registry

end ClusterRounds
