/-
  ClusterRounds.Dataset.Load

  Points out of files. The suffix of the name decides how a file is read: as a stored
  array, as one record on each line, or as a table, which may be packed.
-/

import ClusterRounds.Dataset.Records
import ClusterRounds.Dataset.Table
import ClusterRounds.Files.Archive
import ClusterRounds.Files.StoredArray
import ClusterRounds.Packing.Basic
import ClusterRounds.Value.Json

namespace ClusterRounds.Load

open Files

variable [Machine]

/-- The forms in which a file can hold points. -/
inductive Form where
  | array
  | records
  | table
deriving DecidableEq, Repr

def formOf (p : Path) : Form :=
  if p.suffix = ".npy" then .array
  else if p.suffix = ".jsonl" || p.suffix = ".ndjson" then .records
  else .table

/-- The names of an archive's members as numbers: without the suffix of stored arrays they have to be
    numerals. -/
def namedNumbers (cs : ByteArray) : Outcome (Tensor Float) := do
  let names ← (Archive.names cs).mapError Failure.content
  let numbers ← .ofOperands (names.mapM fun name =>
    (Number.float? (name.dropSuffix ".npy").toString).elim (.error .notANumeral) .ok)
  return .vector numbers

def arrayOfOctets (cs : ByteArray) : Outcome (Tensor Float) :=
  let octets := cs.data.toList
  if octets.isEmpty then .error (.content .endOfFile)
  else if Archive.isArchive octets then namedNumbers cs
  else StoredArray.read octets

def storedArray : Content → Outcome (Tensor Float)
  | .array .objects _ | .checkpoint _ | .foreign => .error (.content .notAnArray)
  | .array type t => do
    let entries ← .ofOperands (t.entries.mapM type.store)
    return (Tensor.ofEntries? t.shape entries).getD t
  | .text s => arrayOfOctets s.toUTF8
  | .bytes b => arrayOfOctets b

def record (line : List Char) : Outcome Value :=
  match Json.read (String.ofList line) with
  | .ok v => .ok v
  | .error .malformed => .error (.content .notJson)
  | .error .longInteger => .error (.operand .notANumeral)
  | .error .deepNesting => .error (.content .deepNesting)

/-- The records on lines; blank lines do not count. -/
def records (lines : List (List Char)) : Outcome (List Value) :=
  (lines.filter fun l => !l.all Text.isBlank).mapM record

/-- The content of the file that holds a table: of the first one that is there, unpacked. -/
def tableContent (tree : Tree) (location : String) : Outcome Content := do
  let some found := (Packing.locations location).find? tree.isOccupied
    | throw (.file (.notFound location))
  let c ← (tree.read found).mapError Failure.file
  match Packing.ofLocation? found with
  | none => return c
  | some packing => (packing.unpackContent c).mapError Failure.content

/-- What a file holds, in the form that its name stands for. -/
def contents (tree : Tree) (p : Path) (column : Value) : Outcome (Tensor Float) :=
  let content := (tree.read p.text).mapError Failure.file
  match formOf p with
  | .array => do storedArray (← content)
  | .records => do
    let lines ← (Lines.ofContent (← content)).mapError Failure.content
    Records.points (← records lines) column
  | .table => do
    let lines ← (Lines.ofContent (← tableContent tree p.text)).mapError Failure.content
    .ofOperands (Table.ofLines lines)

/-- An array of points as a matrix: a vector has one coordinate for each point. -/
def asMatrix (p : Path) (t : Tensor Float) : Outcome (Tensor Float) :=
  match h : t.shape with
  | [n] => .ok ⟨[n, 1], t.entries, by rw [t.length_entries, h]; rfl⟩
  | [_, _] => .ok t
  | shape => .error (.configuration (.fileShape p.text shape))

def points (tree : Tree) (p : Path) (column : Value) : Outcome (Tensor Float) := do
  asMatrix p (← contents tree p column)

end ClusterRounds.Load
