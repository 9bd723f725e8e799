/-
  ClusterRounds.Tensor.Shape

  Shapes of arrays: the lengths of the axes, outermost first. Two shapes can be
  joined if, aligned at the innermost axis, the lengths agree or one of them is one;
  missing outer axes count as ones. Not every shape finds room for an array: how much
  memory there is, is a parameter (`Machine`).
-/

import ClusterRounds.Failure.Operand
import ClusterRounds.Number.Power

namespace ClusterRounds

/-- The machine, of which only the memory and the stack show. -/
class Machine where
  /-- The most octets that can be taken at once. It bounds what is asked for by a number (an array
      of given lengths, a repeated sequence); what is as long as the data is taken to find room. -/
  room : Nat
  /-- How deep the lists and records of a value may be nested if its text is to be written. -/
  nesting : Nat

/-- The machine that is meant where none is named: 32 GiB, and texts as deep as they are read. -/
instance (priority := low) Machine.usual : Machine := ⟨2 ^ 35, 988⟩

/-- The lengths of the axes, outermost first. -/
abbrev Shape := List Nat

namespace Shape

/-- The number of entries of an array of the shape. -/
def size : Shape → Nat
  | [] => 1
  | n :: s => n * size s

/-- The text of a shape in messages: `()`, `(5,)`, `(2, 2)`. -/
def shown : Shape → String
  | [n] => "(" ++ toString n ++ ",)"
  | s => "(" ++ ", ".intercalate (s.map toString) ++ ")"

/-- The shape with ones in front, up to a number of axes. -/
def padTo (rank : Nat) (s : Shape) : Shape := List.replicate (rank - s.length) 1 ++ s

/-- The common length of two axes. -/
def joinAxis (a b : Nat) : Option Nat :=
  if a = b then some a else if a = 1 then some b else if b = 1 then some a else none

/-- The common shape of two shapes with equally many axes. -/
def joinAligned : Shape → Shape → Option Shape
  | [], [] => some []
  | a :: s, b :: t => do
    let n ← joinAxis a b
    let r ← joinAligned s t
    some (n :: r)
  | _, _ => none

def join (s t : Shape) : Option Shape :=
  let rank := max s.length t.length
  joinAligned (s.padTo rank) (t.padTo rank)

/-- Can an array of shape `s` fill one of shape `t`, axis by axis? -/
def Fills : Shape → Shape → Prop
  | [], [] => True
  | a :: s, b :: t => (a = b ∨ a = 1) ∧ Fills s t
  | _, _ => False

instance : (s t : Shape) → Decidable (Fills s t)
  | [], [] => inferInstanceAs (Decidable True)
  | a :: s, b :: t =>
    have := instDecidableFills s t
    inferInstanceAs (Decidable ((a = b ∨ a = 1) ∧ Fills s t))
  | [], _ :: _ => inferInstanceAs (Decidable False)
  | _ :: _, [] => inferInstanceAs (Decidable False)

/-! ## Room -/

/-- The greatest number that a length and a number of octets can be. -/
def greatestLength : Nat := 2 ^ 63 - 1

/-- The shape of some lengths, if an array of that shape can be made of elements of a width. Axes
    without elements do not count against the greatest number of octets. -/
def ofLengths [Machine] (width : Nat) (lengths : List Int) : Except OperandFault Shape :=
  let shape := lengths.map Int.toNat
  let octets := width * size (shape.filter (0 < ·))
  if lengths.any (· < 0) || shape.any (greatestLength < ·) || greatestLength < octets then
    .error .shapesDiffer
  else if Machine.room < width * size shape then .error .noRoomForArray
  else .ok shape

/-! ## Lemmas -/

@[simp] theorem size_nil : size [] = 1 := rfl

@[simp] theorem size_cons (n : Nat) (s : Shape) : size (n :: s) = n * size s := rfl

theorem size_padTo (rank : Nat) (s : Shape) : size (s.padTo rank) = size s := by
  unfold padTo
  generalize rank - s.length = m
  induction m with
  | zero => simp
  | succ m ih => simp [List.replicate_succ, ih]

end Shape

end ClusterRounds
