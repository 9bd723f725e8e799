/-
  ClusterRounds.Files.StoredArray

  Arrays as octets. In front stand a mark, a version, and a header that tells the type
  of the elements, their order and the shape; the elements follow. Arrays are written
  as doubles, row by row; any known type and the order by columns can be read.
-/

import ClusterRounds.Dataset.ElementType
import ClusterRounds.Failure.Basic
import ClusterRounds.Files.Literal

namespace ClusterRounds.Files.StoredArray

/-- The octets that every stored array starts with. -/
def mark : List UInt8 := [0x93, 0x4E, 0x55, 0x4D, 0x50, 0x59]

/-! ## Writing -/

def headerText (shape : Shape) : String :=
  "\x7b'descr': '<f8', 'fortran_order': False, 'shape': " ++ Shape.shown shape ++ ", \x7d"

/-- A header filled up with blanks, so that the elements start at a multiple of 64 octets. -/
def filledHeader (text : String) : String :=
  let used := mark.length + 4 + text.length + 1
  text ++ String.ofList (List.replicate ((64 - used % 64) % 64) ' ') ++ "\n"

def write (t : Tensor Float) : List UInt8 :=
  let header := (filledHeader (headerText t.shape)).toUTF8.data.toList
  mark ++ [1, 0] ++ octets 2 header.length ++ header
    ++ t.entries.flatMap fun x => octets 8 x.toBits.toNat

/-! ## Headers -/

structure Header where
  type : ElementType
  /-- Do elements start with their most significant octet? -/
  swapped : Bool
  byColumns : Bool
  lengths : List Int
  flagged : Bool

/-- The number of elements that a part of a type has in each place. -/
def countOf : Literal → Option Nat
  | .integer n => if 0 ≤ n then some n.toNat else none
  | .tuple items =>
    items.foldlM (fun product v =>
      match v with
      | .integer n => if 0 ≤ n then some (product * n.toNat) else none
      | _ => none) 1
  | _ => none

/-- The type of several fields: a single one is its own type. -/
def joined (parts : List (Bool × ElementType)) : Bool × ElementType :=
  match parts with
  | [part] => part
  | parts => (false, .several ((parts.map fun p => p.2.width).foldl (· + ·) 0))

/-- The type that a text names: one, or several between commas. -/
def typeOfText (s : String) : Option (Bool × ElementType) :=
  if s.toList.contains ',' && !s.toList.contains '[' then do
    let codes := (s.splitOn ",").map fun code => code.trimAscii.toString
    let codes := if codes.getLast? = some "" then codes.dropLast else codes
    return joined (← codes.mapM ElementType.ofName?)
  else ElementType.ofName? s

/-- The type that a header describes: by a text, as a part that is repeated, or field by field. -/
def typeOf : Nat → Literal → Option (Bool × ElementType)
  | 0, _ => none
  | _, .text s => typeOfText s
  | fuel + 1, .tuple [part, count] => do
    let (swapped, type) ← typeOf fuel part
    return (swapped, .repeated (← countOf count) type)
  | fuel + 1, .list fields => do
    let parts ← fields.mapM fun field =>
      match field with
      | .tuple [_, part] => typeOf fuel part
      | .tuple [_, part, count] => typeOf fuel (.tuple [part, count])
      | _ => none
    return joined parts
  | _, _ => none

/-- How deep the description of a type can be nested. -/
def maxNesting : Nat := 32

def lengthOf : Literal → Option Int
  | .integer n => some n
  | .flag b => some (if b then 1 else 0)
  | _ => none

/-- The header that a record describes; it has exactly three fields. -/
def headerOf : Literal → Option Header
  | .record fields => do
    if fields.length ≠ 3 then none
    let (swapped, type) ← typeOf maxNesting (← fields.lookup "descr")
    let .flag byColumns ← fields.lookup "fortran_order" | none
    let .tuple lengths ← fields.lookup "shape" | none
    let flagged := lengths.any fun v => v matches .flag _
    return ⟨type, swapped, byColumns, ← lengths.mapM lengthOf, flagged⟩
  | _ => none

def longestHeader : Nat := 10000

def letters (version : UInt8) (cs : List UInt8) : Except ContentFault (List Char) :=
  if version = 3 then
    (String.fromUTF8? ⟨cs.toArray⟩).elim (.error .notUtf8) fun s => .ok s.toList
  else .ok (cs.map fun b => Char.ofNat b.toNat)

/-- The header in front of the elements, and the octets of the elements. Only headers of the first
    two versions can mark long integers, and are looked at again for what they leave open. -/
def header (cs : List UInt8) : Except ContentFault (Header × List UInt8) := do
  let (some version, some minor) := (cs[6]?, cs[7]?) | throw .notAnArray
  if minor ≠ 0 || version = 0 || 3 < version then throw .notAnArray
  let sizeOctets := if version = 1 then 2 else 4
  let rest := cs.drop 8
  let size := ofOctets (rest.take sizeOctets)
  let body := rest.drop sizeOctets
  if rest.length < sizeOctets || body.length < size then throw .notAnArray
  let text ← letters version (body.take size)
  if longestHeader < text.length then throw .notAnArray
  match Literal.read? (version < 3) text with
  | some v =>
    match headerOf v with
    | some h => return (h, body.drop size)
    | none => throw .notAnArray
  | none => throw (if version < 3 && Literal.isOpen text then .openHeader else .notAnArray)

/-! ## Elements -/

/-- Entries in the order by columns, brought into that by rows. -/
def byRows : Shape → List Float → List Float
  | [], xs => xs
  | n :: inner, xs =>
    let columns := pieces n (Shape.size inner) xs
    (List.range n).flatMap fun i => byRows inner (columns.filterMap (·[i]?))

/-- The number of elements of the given lengths, as far as a word holds it. -/
def elementCount (lengths : List Int) : Except OperandFault Int :=
  if lengths.any fun n => n < -(2 ^ 63) || 2 ^ 64 ≤ n then .error .tooLarge
  else .ok ((lengths.foldl (· * ·) 1).bmod (2 ^ 64))

/-- The most axes that an array can have. -/
def maxAxes : Nat := 64

variable [Machine]

def elements (h : Header) (body : List UInt8) : Outcome (Tensor Float) := do
  let count ← .ofOperands (elementCount h.lengths)
  if h.type matches .objects then throw (.content .notAnArray)
  discard (.ofOperands (Shape.ofLengths h.type.width [count]))
  let repeats :=
    match h.type with
    | .repeated n _ => n
    | _ => 1
  if body.length < h.type.width * count.toNat || (repeats ≠ 1 && count ≠ 0) then
    throw (.content .notAnArray)
  let shape ← .ofOperands (Shape.ofLengths 1 h.lengths)
  if shape.size ≠ count.toNat || maxAxes < shape.length then throw (.content .notAnArray)
  if h.flagged || (h.type matches .several _) then throw (.operand .wrongKind)
  let entries ← .ofOperands ((pieces h.type.width shape.size body).mapM (h.type.read h.swapped))
  match Tensor.ofEntries? shape (if h.byColumns then byRows shape entries else entries) with
  | some t => return t
  | none => throw (.content .notAnArray)

/-- The array that octets store. -/
def read (cs : List UInt8) : Outcome (Tensor Float) := do
  if !mark.isPrefixOf cs then throw (.content .notAnArray)
  let (h, body) ← (header cs).mapError Failure.content
  elements h body

end ClusterRounds.Files.StoredArray
