/-
  ClusterRounds.Dataset.Table

  Matrices as text: a row on each line, numbers between blanks. A sharp sign starts a
  comment, and lines without numbers do not count. Written numbers have nineteen
  significant digits, and a header stands in front as a comment.
-/

import ClusterRounds.Dataset.Lines
import ClusterRounds.Number.Numeral

namespace ClusterRounds.Table

open Number Text

/-! ## Reading -/

/-- The part of a line in front of a comment. -/
def uncommented (line : List Char) : List Char := line.takeWhile (· ≠ '#')

/-- The fields of a line: the runs of characters between blanks. -/
def fields : List Char → List (List Char)
  | [] => []
  | c :: rest =>
    if isBlank c then fields rest
    else
      match rest with
      | [] => [[c]]
      | d :: _ =>
        if isBlank d then [c] :: fields rest
        else
          match fields rest with
          | [] => [[c]]
          | f :: fs => (c :: f) :: fs

def row (line : List Char) : Except OperandFault (List Float) :=
  (fields (uncommented line)).mapM fun f => (plainFloat? f).elim (.error .notANumeral) .ok

/-- The matrix of a list of lines. All rows have to be of one width; without rows there is one
    column. -/
def ofLines (lines : List (List Char)) : Except OperandFault (Tensor Float) := do
  let rows := (← lines.mapM row).filter fun r => !r.isEmpty
  match rows with
  | [] => return ⟨[0, 1], [], rfl⟩
  | first :: _ =>
    if rows.all (·.length = first.length) then return .ofRowLists [first.length] rows
    else throw .ragged

/-! ## Writing -/

def numberText (x : Float) : String := scientificText 18 x

/-- A header as comment lines; an empty one is left out. -/
def headerText (header : String) : String :=
  if header.isEmpty then ""
  else
    "# " ++ String.join (header.toList.map fun c => if c = '\n' then "\n# " else c.toString) ++ "\n"

def rowsText (rows : List (List Float)) : String :=
  String.join (rows.map fun r => " ".intercalate (r.map numberText) ++ "\n")

/-- The text of an array with a header: a vector has one number on each line. Other arrays than
    vectors and matrices have none. -/
def text (header : String) (t : Tensor Float) : Except OperandFault String :=
  match t.shape with
  | [_] => .ok (headerText header ++ rowsText (t.entries.map fun x => [x]))
  | [_, _] => .ok (headerText header ++ rowsText t.rowLists)
  | _ => .error .shapesDiffer

end ClusterRounds.Table
