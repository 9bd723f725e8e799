/-
  ClusterRounds.Dataset.Blobs

  Generated points: centres that are given or drawn from a box, some points around each
  of them, and all points shuffled.
-/

import ClusterRounds.Dataset.Records
import ClusterRounds.Random.Twister
import ClusterRounds.Settings.Argument
import ClusterRounds.Tensor.Basic

namespace ClusterRounds.Blobs

open ClusterRounds.Random

inductive Counts where
  /-- Some in all, about equally many around each centre. -/
  | shared (total : Nat)
  /-- Some around each centre. Whether they are numbers is only seen when they are used. -/
  | own (each : List Value)

inductive Centres where
  /-- A number of them is drawn, or as many as there are counts of points. -/
  | drawn (count : Option Quantity)
  | given (rows : Value)

structure Parameters where
  points : Counts
  /-- The number of coordinates of centres that are drawn. -/
  width : Quantity
  centres : Centres
  /-- The standard deviation around all centres, or around each of them. -/
  spread : Value
  /-- Centres are drawn between this and its negative. -/
  box : Quantity
  seed : UInt32

structure Dataset where
  points : Tensor Float
  labels : List Int
  centres : Tensor Float

/-! ## Parameters -/

/-- An integer of at least one; a flag is one, too. -/
def positive? : Value → Outcome Quantity
  | .int i => if 1 ≤ i then .ok (.int i) else .error .datasetParameters
  | .bool true => .ok (.flag true)
  | _ => .error .datasetParameters

/-- A number of points, or several in a list or as the names of a record. -/
def counts? : Value → Outcome Counts
  | .list items => .ok (.own items)
  | .record fields => .ok (.own (fields.map fun f => .text f.1))
  | v => do return .shared (← .ofOperands (← positive? v).truncate).toNat

/-- A number of centres, which is open if there is none, or the centres. -/
def centres? : Value → Outcome Centres
  | .null => .ok (.drawn none)
  | .list items => .ok (.given (.list items))
  | .record fields => .ok (.given (.record fields))
  | v => do return .drawn (some (← positive? v))

/-- Can the value be a spread: a number that is not negative and not infinite, or a collection? -/
def isSpread : Value → Bool
  | .list _ | .record _ | .bool _ => true
  | .int i => 0 ≤ i
  | .float x => 0 ≤ x && x.isFinite
  | _ => false

def seed? (v : Value) : Outcome UInt32 :=
  match v with
  | .int i => if 0 ≤ i && i < 2 ^ 32 then .ok (UInt32.ofNat i.toNat) else .error .datasetParameters
  | .bool b => .ok (if b then 1 else 0)
  | _ => .error .datasetParameters

/-- The parameters named by the arguments. The box only has to be a number. -/
def ofArguments (args : Arguments) : Outcome Parameters := do
  args.onlyKnown ["N", "D", "K", "cluster_std", "center_box", "seed"]
  if ["N", "D", "K"].any fun name => (args.lookup name).isNone then throw (.operand .wrongKind)
  let some box := (args.get "center_box" (.float 20)).quantity? | throw (.operand .wrongKind)
  let points ← counts? (args.get "N" .null)
  let width ← positive? (args.get "D" .null)
  let centres ← centres? (args.get "K" .null)
  let spread := args.get "cluster_std" (.float 1)
  if !isSpread spread then throw .datasetParameters
  let seed ← seed? (args.get "seed" (.int 42))
  return { points, width, centres, spread, box, seed }

/-- What is told about the points: the arguments that made them. -/
def metadata (args : Arguments) : List (String × Value) :=
  [("N", args.get "N" .null), ("D", args.get "D" .null), ("K", args.get "K" .null),
    ("cluster_std", args.get "cluster_std" (.float 1)), ("seed", args.get "seed" (.int 42))]

/-! ## Centres that are given -/

/-- Is it a value that makes an array hold anything, to be read as numbers only when they are used?
    Integers longer than a word are such values. -/
def isLoose : Value → Bool
  | .null | .record _ => true
  | .int i => i < -(2 ^ 63) || 2 ^ 64 ≤ i
  | _ => false

/-- What is wrong with a value among others in an array of centres, which may all be loose. -/
def faultOf? (loose : Bool) : Value → Option OperandFault
  | .text _ => if loose then none else some .notANumeral
  | .float x =>
    if x.isNaN then some .undefinedNumber
    else if !loose && !x.isFinite then some .outOfRange
    else none
  | _ => none

/-- The rows of an array of centres: there has to be one at least, with a coordinate. -/
def rowsOf (v : Value) : Except OperandFault (List (List Value)) := do
  match v, ← Records.shape? v with
  | .list rows, [_, width] =>
    let rows := rows.map fun row =>
      match row with
      | .list items => items
      | _ => []
    let all := rows.flatten
    if width = 0 then throw .shapesDiffer
    match all.findSome? (faultOf? (all.any isLoose)) with
    | some fault => throw fault
    | none => return rows
  | _, _ => throw .shapesDiffer

/-! ## Drawing -/

/-- The length of an axis; a flag is none. -/
def axisLength : Quantity → Except OperandFault Int
  | .int n => .ok n
  | _ => .error .wrongKind

def doubleSize : Nat := 8

/-- Draws `n` times. -/
def draws {σ β : Type} (draw : σ → β × σ) : Nat → σ → List β × σ
  | 0, s => ([], s)
  | n + 1, s =>
    let (x, s) := draw s
    let (xs, s) := draws draw n s
    (x :: xs, s)

def coordinate (box : Float) (g : Twister.State) : Float × Twister.State :=
  let (u, g) := Twister.uniform g
  (-box + (box - (-box)) * u, g)

variable [Machine]

def drawn (p : Parameters) (count : Quantity) (g : Twister.State) :
    Except OperandFault (List (List Value) × Twister.State) := do
  let box ← p.box.toFloat
  -- the box may be a double whose double is not
  if !(box - (-box)).isFinite then throw .tooLarge
  match ← Shape.ofLengths doubleSize [← axisLength count, ← axisLength p.width] with
  | [rows, width] =>
    let (rows, g) := draws (draws (coordinate box) width) rows g
    return (rows.map fun row => row.map Value.float, g)
  | _ => throw .shapesDiffer

/-- How many centres are drawn if nothing is said. -/
def usualCentres : Nat := 3

/-- The rows of the centres. Own counts of points go with centres that are given one by one. -/
def placed (p : Parameters) (g : Twister.State) :
    Except OperandFault (List (List Value) × Twister.State) := do
  match p.points, p.centres with
  | .shared _, .drawn count => drawn p (count.getD (.int usualCentres)) g
  | .shared _, .given rows => return (← rowsOf rows, g)
  | .own [], .drawn none | .own _, .drawn (some _) => throw .shapesDiffer
  | .own each, .drawn none => drawn p (.int each.length) g
  | .own each, .given rows =>
    let rows ← rowsOf rows
    if rows.length ≠ each.length then throw .shapesDiffer
    return (rows, g)

/-! ## Counts and spreads -/

/-- How many points a centre gets: the first ones get one more if they do not come out even. -/
def share (points centres i : Nat) : Nat := points / centres + (if i < points % centres then 1 else 0)

/-- The number of points around each centre. -/
def Counts.each (centres : Nat) : Counts → List Value
  | .shared total => (List.range centres).map fun i => .int (share total centres i)
  | .own each => each

/-- The sum of two quantities: exact for integers. -/
def sum (a b : Quantity) : Except OperandFault Quantity :=
  match a, b with
  | .float x, q | q, .float x => do return .float (x + (← q.toFloat))
  | p, q => do return .int ((← p.truncate) + (← q.truncate))

def Counts.total : Counts → Except OperandFault Int
  | .shared total => .ok total
  | .own each => do
    discard (Records.shape? (.list each))
    axisLength (← each.foldlM (fun total v =>
      v.quantity?.elim (.error .wrongKind) (sum total)) (.int 0))

def spreads (centres : Nat) (v : Value) : Except OperandFault (List Value) :=
  let each : List Value :=
    match v with
    | .list items => items
    | .record fields => fields.map fun f => .text f.1
    | v => List.replicate centres v
  if each.length = centres then .ok each else .error .shapesDiffer

/-- A spread as an array. A negative sign is refused, also that of a negative zero. -/
def spreadOf (v : Value) : Except OperandFault (Tensor Float) := do
  let shape ← Records.shape? v
  let xs ← Records.vector v
  if xs.any fun x => !x.isNaN && x.toBits >>> 63 = 1 then throw .outOfRange
  (Tensor.ofEntries? shape xs).elim (.error .ragged) .ok

/-! ## Points -/

/-- A point around a centre, with a spread for each coordinate. -/
def around : List (Float × Float) → Twister.Normal → List Float × Twister.Normal
  | [], n => ([], n)
  | (c, spread) :: rest, n =>
    let (x, n) := Twister.normal n
    let (xs, n) := around rest n
    ((c + spread * x) :: xs, n)

/-- Points around a centre, with the spreads of each of them. -/
def allAround (centre : List Float) :
    List (List Float) → Twister.Normal → List (List Float) × Twister.Normal
  | [], n => ([], n)
  | spreads :: rest, n =>
    let (x, n) := around (centre.zip spreads) n
    let (xs, n) := allAround centre rest n
    (x :: xs, n)

/-- What is known about a cluster before it is drawn. -/
structure Cluster where
  label : Int
  centre : List Value
  spread : Value
  count : Value

/-- The coordinates of the centres, and the points around them with their labels. The values of each
    cluster are only looked at when it is its turn. -/
def clusters : List Cluster → Twister.Normal →
    Except OperandFault (List (List Float) × List (Int × List Float) × Twister.Normal)
  | [], n => .ok ([], [], n)
  | c :: rest, n => do
    let centre ← c.centre.mapM Records.coordinate
    let spread ← spreadOf c.spread
    let count ← axisLength (← c.count.quantity?.elim (.error .wrongKind) .ok)
    let shape ← Shape.ofLengths doubleSize [count, centre.length]
    let (here, n) := allAround centre (← spread.stretchTo shape).rowLists n
    let (centres, others, n) ← clusters rest n
    return (centre :: centres, here.map ((c.label, ·)) ++ others, n)

def generate (p : Parameters) : Outcome Dataset := .ofOperands do
  let (rows, g) ← placed p (Twister.ofSeed p.seed)
  let spreads ← spreads rows.length p.spread
  let width := (rows.headD []).length
  discard (Shape.ofLengths doubleSize [← p.points.total, width])
  let asked := (rows.zipIdx.zip (spreads.zip (p.points.each rows.length))).map
    fun ((centre, label), (spread, count)) => ⟨label, centre, spread, count⟩
  let (centres, points, n) ← clusters asked ⟨g, none⟩
  let shuffled := (Random.shuffle Twister.source n.generator points.toArray).1.toList
  return {
    points := .ofRowLists [width] (shuffled.map (·.2))
    labels := shuffled.map (·.1)
    centres := .ofRowLists [width] centres }

end ClusterRounds.Blobs
