/-
  ClusterRounds.Dataset.Lines

  Texts as lines. A line ends at a line feed, at a carriage return, or at both
  together; what follows the last ending is a line if there is anything.
-/

import ClusterRounds.Files.Tree

namespace ClusterRounds.Lines

/-- Puts a character in front of the first line. -/
def putFirst (c : Char) : List (List Char) → List (List Char)
  | [] => [[c]]
  | line :: rest => (c :: line) :: rest

/-- The lines of a text, without their endings. -/
def split : List Char → List (List Char)
  | [] => []
  | '\r' :: '\n' :: rest => [] :: split rest
  | c :: rest => if c = '\n' || c = '\r' then [] :: split rest else putFirst c (split rest)

def textOf : Files.Content → Except ContentFault String
  | .text s => .ok s
  | .bytes b => (String.fromUTF8? b).elim (.error .notUtf8) .ok
  | .array _ _ | .checkpoint _ | .foreign => .error .notUtf8

def ofContent (c : Files.Content) : Except ContentFault (List (List Char)) := do
  return split (← textOf c).toList

end ClusterRounds.Lines
