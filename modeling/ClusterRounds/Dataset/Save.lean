/-
  ClusterRounds.Dataset.Save

  Points into files: as a stored array if the suffix says so, else as a table with a
  header made of metadata, packed if its name says so. An array is stored under a name
  that ends in its suffix in small letters, which is added if need be.
-/

import ClusterRounds.Dataset.Table
import ClusterRounds.Packing.Basic

namespace ClusterRounds.Save

open Files

def arraySuffix : String := ".npy"

def header (metadata : List (String × Value)) : String :=
  " ".intercalate (metadata.map fun m => m.1 ++ "=" ++ m.2.plain)

def arrayPath (p : Path) : Path :=
  if p.text.endsWith arraySuffix then p else p.extend arraySuffix

def tableText (metadata : List (String × Value)) (data : Tensor Float) :
    Except OperandFault String := do
  let s ← Table.text (header metadata) data
  if s.toList.any fun c => (Text.unpaired? c).isSome then throw .notEncodable
  return s

/-- Writes points and makes the directories they need. What was done before a failure stays done. -/
def points (tree : Tree) (p : Path) (data : Tensor Float) (metadata : List (String × Value)) :
    Outcome Unit × Tree :=
  match tree.makeDirectories p.parent with
  | .error fault => (.error (.file fault), tree)
  | .ok tree =>
    if p.suffix = arraySuffix then
      let target := arrayPath p
      match tree.write target.text (.array (.binary .double) data) with
      | .error fault => (.error (.file fault), tree)
      | .ok tree => (.ok (), tree)
    else
      match tree.write p.text (Packing.textContent p.text "") with
      | .error fault => (.error (.file fault), tree)
      | .ok emptied =>
        match tableText metadata data with
        | .error fault => (.error (.operand fault), emptied)
        | .ok s =>
          let written := emptied.write p.text (Packing.textContent p.text s)
          (.ok (), written.toOption.getD emptied)

end ClusterRounds.Save
