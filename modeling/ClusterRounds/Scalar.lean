/-
  ClusterRounds.Scalar

  What coordinates are made of. Everything the clustering computes is written over
  a `Scalar`, so that the same definitions run on doubles and can be reasoned about
  over exact rationals. The class asks for operations only; no law is assumed, since
  rounded addition has few.
-/

import ClusterRounds.Number.Quantity

namespace ClusterRounds

open Number

class Scalar (α : Type) extends Zero α, Add α, Sub α, Mul α, Div α where
  magnitude : α → α
  /-- The root that turns a sum of squares into a distance. -/
  root : α → α
  less : α → α → Bool
  /-- Is this the result of an operation that has none? -/
  isUndefined : α → Bool
  ofInt : Int → α
  isBelow : α → Quantity → Bool

instance : Scalar Float where
  zero := 0.0
  magnitude := Float.abs
  root := Float.sqrt
  less a b := a < b
  isUndefined := Float.isNaN
  ofInt := floatOfInt
  isBelow x q := q.aboveFloat x

/-- Is a rational below a quantity? The undefined double is above nothing. -/
def Quantity.aboveRat (q : Quantity) (x : Rat) : Bool :=
  match q with
  | .flag b => x < (Quantity.ofFlag b : Rat)
  | .int i => x < (i : Rat)
  | .float y =>
    match Parts.ofFloat y with
    | .undefined => false
    | .infinite negative => !negative
    | p => (p.toRat?).any fun r => x < r

/-- Rationals compute exactly. Distances are compared through their squares, so the root is left
    out. -/
instance : Scalar Rat where
  zero := 0
  magnitude x := if x < 0 then -x else x
  root := id
  less a b := a < b
  isUndefined _ := false
  ofInt i := i
  isBelow x q := q.aboveRat x

namespace Scalar

variable {α : Type} [Scalar α]

/-- The sum of squares, from zero, left to right. -/
def sumSquares (xs : List α) : α := xs.foldl (fun s x => s + x * x) 0

/-- The larger of two, an undefined one being larger than all. -/
def larger (a b : α) : α :=
  if isUndefined a then a
  else if isUndefined b then b
  else if less a b then b else a

/-- The largest of all, undefined if one of them is. -/
def maximum : List α → Except OperandFault α
  | [] => .error .noElements
  | x :: rest => .ok (rest.foldl larger x)

/-- Does a later number take the place of the least so far? An undefined one is least of all, and
    the first among equals stays. -/
def isLess (candidate least : α) : Bool :=
  !isUndefined least && (isUndefined candidate || less candidate least)

/-- The place of the least number in `rest`, which starts at place `i`, against the least so far. -/
def argMinFrom (least : α) (place : Nat) : Nat → List α → Nat
  | _, [] => place
  | i, x :: rest => if isLess x least then argMinFrom x i (i + 1) rest else argMinFrom least place (i + 1) rest

/-- The place of the first least number. -/
def argMin : List α → Except OperandFault Nat
  | [] => .error .noElements
  | x :: rest => .ok (argMinFrom x 0 1 rest)

end Scalar

end ClusterRounds
