/-
  ClusterRounds.Settings.Argument

  Named raw values, and the checks that settings share: a positive integer, and a
  number that is at least one.
-/

import ClusterRounds.Failure.Basic

namespace ClusterRounds

abbrev Arguments := List (String × Value)

namespace Arguments

def get (args : Arguments) (name : String) (default : Value) : Value :=
  (args.lookup name).getD default

def onlyKnown (args : Arguments) (known : List String) : Outcome Unit :=
  if args.all fun a => known.contains a.1 then .ok () else .error (.operand .wrongKind)

end Arguments

def positiveInteger? : Value → Option { n : Nat // 0 < n }
  | .int i => if h : 0 < i.toNat then some ⟨i.toNat, h⟩ else none
  | _ => none

def atLeastOne (setting : String) (v : Value) : Outcome Quantity :=
  match v.quantity? with
  | none => .error (.operand .wrongKind)
  | some q => if q.ltInt 1 then .error (.configuration (.notPositive setting)) else .ok q

end ClusterRounds
