/-
  ClusterRounds.Files.Stored

  The contents of files as octets. Octets are a text if they are one, and a snapshot is
  known by the mark at its start. An array is read where it is needed.
-/

import ClusterRounds.Files.StoredArray
import ClusterRounds.Files.StoredSnapshot
import ClusterRounds.Files.Tree

namespace ClusterRounds.Files

/-- The content of a text: a snapshot if it starts like one and is one. -/
def Content.ofText (s : String) : Content :=
  if s.startsWith ("\x7b\"" ++ StoredSnapshot.mark ++ "\"") then
    ((StoredSnapshot.read? s).map Content.checkpoint).getD (.text s)
  else .text s

def Content.ofOctets (b : ByteArray) : Content :=
  (String.fromUTF8? b).elim (.bytes b) Content.ofText

/-- The octets of a content. Arrays are stored as doubles, and an object of another kind has none that could be written. -/
def Content.octets : Content → ByteArray
  | .text s => s.toUTF8
  | .bytes b => b
  | .array _ t => ⟨(StoredArray.write t).toArray⟩
  | .checkpoint s => (StoredSnapshot.write s).toUTF8
  | .foreign => ByteArray.empty

end ClusterRounds.Files
