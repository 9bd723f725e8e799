/-
  ClusterRounds.Value.Basic

  Raw values: what a setting or a record holds before anybody has checked it. A
  value is null, a flag, an integer, a double, a text, a list, or a record with its
  fields in order. Here are its text in messages and which values have one, the
  comparison that numbers of all kinds share, and what counts as empty.
-/

import ClusterRounds.Number.Quantity
import ClusterRounds.Number.Numeral
import ClusterRounds.Text.Quoted

namespace ClusterRounds

open Number Text

inductive Value where
  | null
  | bool (b : Bool)
  | int (i : Int)
  | float (x : Float)
  | text (s : String)
  | list (items : List Value)
  | record (fields : List (String × Value))
deriving Inhabited

def Quantity.shown : Quantity → String
  | .flag b => if b then "True" else "False"
  | .int i => toString i
  | .float x => shortestText .message x

def bracketed (items : List String) : String := "[" ++ ", ".intercalate items ++ "]"

namespace Value

def quantity? : Value → Option Quantity
  | bool b => some (.flag b)
  | int i => some (.int i)
  | float x => some (.float x)
  | _ => none

def ofQuantity : Quantity → Value
  | .flag b => bool b
  | .int i => int i
  | .float x => float x

/-! ## Text -/

mutual

/-- The text of a value in messages; texts are quoted. That it can be made is said apart from it
    (`isWritable`). -/
def shown : Value → String
  | null => "None"
  | bool b => (Quantity.flag b).shown
  | int i => (Quantity.int i).shown
  | float x => (Quantity.float x).shown
  | text s => quoted s
  | list items => bracketed (shownItems items)
  | record fields => "\x7b" ++ ", ".intercalate (shownFields fields) ++ "\x7d"

def shownItems : List Value → List String
  | [] => []
  | v :: rest => v.shown :: shownItems rest

def shownFields : List (String × Value) → List String
  | [] => []
  | (k, v) :: rest => (quoted k ++ ": " ++ v.shown) :: shownFields rest

end

/-- The text of a value where it stands alone: a text is itself. -/
def plain : Value → String
  | text s => s
  | v => v.shown

mutual

/-- Is there a text of the value? Its integers are not too long then, and its lists and records are
    nested no deeper than `depth`. -/
def isWritable (depth : Nat) : Value → Bool
  | null | bool _ | float _ | text _ => true
  | int i => Number.isWritable i
  | list items => 0 < depth && areWritable (depth - 1) items
  | record fields => 0 < depth && fieldsWritable (depth - 1) fields

def areWritable (depth : Nat) : List Value → Bool
  | [] => true
  | v :: rest => v.isWritable depth && areWritable depth rest

def fieldsWritable (depth : Nat) : List (String × Value) → Bool
  | [] => true
  | (_, v) :: rest => v.isWritable depth && fieldsWritable depth rest

end

/-! ## Equality -/

mutual

/-- Are two values equal? Numbers are compared as numbers, records without regard to the order of
    their fields, and the undefined number equals nothing. -/
def equal : Value → Value → Bool
  | null, w => match w with | null => true | _ => false
  | bool b, w => w.quantity?.any ((Quantity.flag b).equal ·)
  | int i, w => w.quantity?.any ((Quantity.int i).equal ·)
  | float x, w => w.quantity?.any ((Quantity.float x).equal ·)
  | text s, w => match w with | text t => s = t | _ => false
  | list items, w => match w with | list others => equalItems items others | _ => false
  | record fields, w =>
    match w with
    | record others => fields.length = others.length && equalFields fields others
    | _ => false

def equalItems : List Value → List Value → Bool
  | [], [] => true
  | v :: rest, w :: others => v.equal w && equalItems rest others
  | _, _ => false

def equalFields : List (String × Value) → List (String × Value) → Bool
  | [], _ => true
  | (k, v) :: rest, others =>
    (match others.lookup k with | some w => v.equal w | none => false) && equalFields rest others

end

/-! ## Conversions -/

/-- Does the value count as empty: null, false, zero, or without contents? -/
def isEmpty : Value → Bool
  | null => true
  | bool b => !b
  | int i => i = 0
  | float x => x == 0
  | text s => s.isEmpty
  | list items => items.isEmpty
  | record fields => fields.isEmpty

/-- The integer that a value stands for: a number cut toward zero, or a numeral. -/
def toInteger : Value → Except OperandFault Int
  | text s => (integer? s).elim (.error .notANumeral) .ok
  | v =>
    match v.quantity? with
    | some q => q.truncate
    | none => .error .wrongKind

/-- Is the value below an integer? Only numbers can be asked. -/
def isBelow (v : Value) (i : Int) : Except OperandFault Bool :=
  match v.quantity? with
  | some q => .ok (q.ltInt i)
  | none => .error .wrongKind

def field? (name : String) : Value → Option Value
  | record fields => fields.lookup name
  | _ => none

end Value

end ClusterRounds
