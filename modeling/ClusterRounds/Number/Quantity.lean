/-
  ClusterRounds.Number.Quantity

  A number whose kind is only known when it is used: a flag that counts as one or
  zero, an integer of any size, or a double. Comparisons are exact, whatever the
  kinds, and the undefined double compares with nothing.
-/

import ClusterRounds.Number.Binary
import ClusterRounds.Failure.Operand

namespace ClusterRounds

open Number

inductive Quantity where
  | flag (b : Bool)
  | int (i : Int)
  | float (x : Float)
deriving Inhabited

namespace Quantity

def ofFlag (b : Bool) : Int := if b then 1 else 0

/-- The order of a quantity and an integer; none for the undefined double. -/
def compareInt : Quantity → Int → Option Ordering
  | flag b, i => some (compare (ofFlag b) i)
  | int n, i => some (compare n i)
  | float x, i => (Parts.ofFloat x).compareInt i

def ltInt (q : Quantity) (i : Int) : Bool := q.compareInt i == some .lt

def leInt (q : Quantity) (i : Int) : Bool :=
  q.compareInt i == some .lt || q.compareInt i == some .eq

def compareFloat (x : Float) : Quantity → Option Ordering
  | flag b => (Parts.ofFloat x).compareInt (ofFlag b)
  | int n => (Parts.ofFloat x).compareInt n
  | float y => if x < y then some .lt else if y < x then some .gt else if x == y then some .eq else none

def aboveFloat (q : Quantity) (x : Float) : Bool := compareFloat x q == some .lt

/-- Are two quantities the same number? -/
def equal : Quantity → Quantity → Bool
  | flag a, q => q.compareInt (ofFlag a) == some .eq
  | int a, q => q.compareInt a == some .eq
  | float x, q => compareFloat x q == some .eq

/-- The integer part, rounded toward zero. -/
def truncate : Quantity → Except OperandFault Int
  | flag b => .ok (ofFlag b)
  | int n => .ok n
  | float x =>
    match Parts.ofFloat x with
    | .undefined => .error .undefinedNumber
    | p => (p.truncate?).elim (.error .tooLarge) .ok

def toFloat : Quantity → Except OperandFault Float
  | flag b => .ok (if b then 1.0 else 0.0)
  | int n => (floatOfInt? n).elim (.error .tooLarge) .ok
  | float x => .ok x

/-- Is the integer a whole multiple of the quantity? Nothing is one of the undefined double, and
    only zero is one of an infinity. -/
def divides (q : Quantity) (i : Int) : Bool :=
  match q with
  | flag b => i % ofFlag b = 0
  | int n => i % n = 0
  | float x =>
    match Parts.ofFloat x with
    | .undefined => false
    | .infinite _ => i = 0
    | .finite _ m e =>
      let (num, den) := ratioOf m e
      (i.natAbs * den) % num = 0

end Quantity

end ClusterRounds
