/-
  ClusterRounds.Packing.Basic

  Packed files. How a file is packed is told by the ending of its name. A table may be
  asked for without that ending; the file that is there is taken then.
-/

import ClusterRounds.Files.Tree
import ClusterRounds.Packing.Bzip
import ClusterRounds.Packing.Gzip
import ClusterRounds.Packing.Xz

namespace ClusterRounds

open Files

/-- The ways in which a file can be packed. -/
inductive Packing where
  | bzip
  | gzip
  | xz
deriving DecidableEq, Repr

namespace Packing

/-- The endings of packed files, in the order in which they are looked for. -/
def endings : List (String × Packing) :=
  [(".bz2", .bzip), (".gz", .gzip), (".xz", .xz), (".lzma", .xz)]

/-- The ending of a location: the last dot of its last part and what follows it. Dots that a part
    starts with begin no ending. -/
def endingOf (location : String) : String :=
  let last := (location.toList.reverse.takeWhile (· ≠ '/')).reverse
  let after := (last.reverse.takeWhile (· ≠ '.')).reverse
  let before := last.take (last.length - after.length)
  if before.all (· = '.') then "" else String.ofList ('.' :: after)

def ofLocation? (location : String) : Option Packing := endings.lookup (endingOf location)

def locations (location : String) : List String :=
  location ::
    if (ofLocation? location).isSome then [] else endings.map fun ending => location ++ ending.1

def unpack : Packing → ByteArray → Except ContentFault ByteArray
  | bzip => Bzip.unpack
  | gzip => Gzip.unpack
  | xz => Xz.unpack

def pack : Packing → ByteArray → ByteArray
  | bzip => Bzip.pack
  | gzip => Gzip.pack
  | xz => Xz.pack

/-- What is wrong with contents that are packed in no way at all. -/
def fault : Packing → ContentFault
  | bzip => .brokenBlocks
  | gzip => .notPacked
  | xz => .brokenChain

def unpackContent (p : Packing) (c : Content) : Except ContentFault Content :=
  match c with
  | .text s => return .bytes (← p.unpack s.toUTF8)
  | .bytes b => return .bytes (← p.unpack b)
  | .array _ _ | .checkpoint _ | .foreign => .error p.fault

/-- A text as the content of a file at a location, packed if its ending says so. -/
def textContent (location s : String) : Content :=
  match ofLocation? location with
  | some p => .bytes (p.pack s.toUTF8)
  | none => .text s

end Packing

end ClusterRounds
