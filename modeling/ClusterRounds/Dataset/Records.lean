/-
  ClusterRounds.Dataset.Records

  Points out of records. The coordinates of a record are the value of one field,
  whatever it is nested in, read as doubles; all records have to have equally many.
-/

import ClusterRounds.Failure.Basic
import ClusterRounds.Tensor.Basic

namespace ClusterRounds.Records

open Number

/-! ## Coordinates of a value -/

/-- How deep lists may be nested. -/
def maxDepth : Nat := 64

mutual

/-- The shape that a value has as an array; lists have to be of equal shapes. -/
def shape? : Value → Except OperandFault Shape
  | .list items =>
    match items with
    | [] => .ok [0]
    | v :: rest => do
      let inner ← shape? v
      if !(← shapesAre inner rest) then throw .ragged
      return (rest.length + 1) :: inner
  | _ => .ok []

def shapesAre (shape : Shape) : List Value → Except OperandFault Bool
  | [] => .ok true
  | v :: rest => do
    if (← shape? v) ≠ shape then return false
    shapesAre shape rest

end

/-- The double that a value without parts stands for: nothing is the undefined number. -/
def coordinate : Value → Except OperandFault Float
  | .null => .ok Parts.undefined.toFloat
  | .text s => (float? s).elim (.error .notANumeral) .ok
  | v =>
    match v.quantity? with
    | some q => q.toFloat
    | none => .error .wrongKind

mutual

def coordinates : Value → Except OperandFault (List Float)
  | .list items => coordinatesOfAll items
  | v => do return [← coordinate v]

def coordinatesOfAll : List Value → Except OperandFault (List Float)
  | [] => .ok []
  | v :: rest => do return (← coordinates v) ++ (← coordinatesOfAll rest)

end

def vector (v : Value) : Except OperandFault (List Float) := do
  let shape ← shape? v
  if maxDepth < shape.length then throw .ragged
  coordinates v

/-! ## Fields of a record -/

def isPart (part whole : List Char) : Bool :=
  part.isPrefixOf whole || match whole with
    | [] => false
    | _ :: rest => isPart part rest

def isName : Value → Bool
  | .list _ | .record _ => false
  | _ => true

/-- Does a record have a field? A list has its items, a text its parts. -/
def has (record column : Value) : Except OperandFault Bool :=
  match record, column with
  | .record fields, .text name => .ok (fields.any (·.1 = name))
  | .record _, column => if isName column then .ok false else .error .wrongKind
  | .list items, column => .ok (items.any (·.equal column))
  | .text s, .text part => .ok (isPart part.toList s.toList)
  | _, _ => .error .wrongKind

/-- The item of a list at a place; negative places count from the end. -/
def item (items : List Value) (i : Int) : Except OperandFault Value :=
  let place := if i < 0 then i + items.length else i
  if place < 0 then .error .rowOutOfRange
  else (items[place.toNat]?).elim (.error .rowOutOfRange) .ok

/-- The value of a field. A list is asked by place, which a flag can be too. -/
def valueOf (record column : Value) : Except OperandFault Value :=
  match record, column with
  | .record fields, .text name => (fields.lookup name).elim (.error .wrongKind) .ok
  | .list items, .int i => item items i
  | .list items, .bool b => item items (Quantity.ofFlag b)
  | _, _ => .error .wrongKind

/-- The records of a value: the items of a list, the names of a record, the characters of a text. -/
def recordsOf : Value → Except OperandFault (List Value)
  | .list items => .ok items
  | .record fields => .ok (fields.map fun f => .text f.1)
  | .text s => .ok (s.toList.map fun c => .text c.toString)
  | _ => .error .wrongKind

/-! ## Points -/

/-- The vector of one record, which has to be as wide as those before it. -/
def vectorOf (column : Value) (width : Option Nat) (i : Nat) (record : Value) :
    Outcome (List Float) := do
  if !(← .ofOperands (has record column)) then
    throw (.configuration (.noField i column))
  let v ← .ofOperands (do vector (← valueOf record column))
  match width with
  | some w => if v.length ≠ w then throw (.configuration (.recordWidth i v.length w)) else return v
  | none => return v

def vectorsFrom (column : Value) : Option Nat → Nat → List Value → Outcome (List (List Float))
  | _, _, [] => .ok []
  | width, i, record :: rest => do
    let v ← vectorOf column width i record
    return v :: (← vectorsFrom column (some (width.getD v.length)) (i + 1) rest)

def points (records : List Value) (column : Value) : Outcome (Tensor Float) := do
  let vectors ← vectorsFrom column none 0 records
  match vectors with
  | [] => return .noPoints
  | v :: _ => return .ofRowLists [v.length] vectors

end ClusterRounds.Records
