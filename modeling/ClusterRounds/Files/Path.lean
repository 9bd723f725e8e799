/-
  ClusterRounds.Files.Path

  Paths as text. A path is a root, if it has one, and its parts; empty parts and
  single dots do not count, two dots do. The last part is the name, and what follows
  the last dot inside it is the suffix. A text is walked step by step, single dots
  included, and not every text can be walked.
-/

import ClusterRounds.Failure.Basic

namespace ClusterRounds.Files

structure Path where
  /-- Nothing, one slash, or exactly two. -/
  root : String
  parts : List String
deriving DecidableEq, Repr

namespace Path

def cutAtSlashes : List Char → List (List Char)
  | [] => [[]]
  | '/' :: rest => [] :: cutAtSlashes rest
  | c :: rest =>
    match cutAtSlashes rest with
    | [] => [[c]]
    | part :: parts => (c :: part) :: parts

def rootOf : List Char → String
  | '/' :: '/' :: '/' :: _ => "/"
  | '/' :: '/' :: _ => "//"
  | '/' :: _ => "/"
  | _ => ""

def ofText (s : String) : Path where
  root := rootOf s.toList
  parts := ((cutAtSlashes s.toList).map String.ofList).filter fun p => p ≠ "" && p ≠ "."

/-- The text of a path; the empty path is a dot. -/
def text (p : Path) : String :=
  let s := p.root ++ "/".intercalate p.parts
  if s.isEmpty then "." else s

def name (p : Path) : String := p.parts.getLastD ""

def parent (p : Path) : Path := { p with parts := p.parts.dropLast }

/-- The path with some text behind its name. -/
def extend (p : Path) (ending : String) : Path :=
  { p with parts := p.parts.dropLast ++ [p.name ++ ending] }

/-- The last dot of a name and what follows it. A dot at the start or at the end is no suffix. -/
def suffixOf (name : List Char) : List Char :=
  let after := (name.reverse.takeWhile (· ≠ '.')).reverse
  let before := name.length - after.length
  if after.isEmpty || before ≤ 1 then [] else '.' :: after

def suffix (p : Path) : String := String.ofList ((suffixOf p.name.toList).map Char.toLower)

/-- The parts as seen from where the program runs. -/
def steps (p : Path) : List String := if p.root.isEmpty then p.parts else "/" :: p.parts

/-! ## Texts as they are walked -/

/-- The steps of a text. Unlike a path it keeps its single dots, and a slash at the end is one. -/
def stepsOf (s : String) : List String :=
  let parts := ((cutAtSlashes s.toList).map String.ofList).filter (· ≠ "")
  (if s.startsWith "/" then ["/"] else []) ++ parts ++
    (if s.endsWith "/" && !parts.isEmpty then ["."] else [])

def longestName : Nat := 255

/-- How many octets are too many for a whole path. -/
def longestPath : Nat := 4096

/-- What keeps a text from being a path at all. Some halves of pairs stand for single octets. -/
def faultOf? (s : String) : Option FileFault :=
  if s.toList.contains '\x00' then some .nullCharacter
  else if s.toList.any fun c => (Text.unpaired? c).any fun u => u < 0xDC80 || 0xDCFF < u then
    some .notEncodable
  else if longestPath ≤ s.utf8ByteSize then some (.nameTooLong s)
  else none

end Path

end ClusterRounds.Files
