/-
  ClusterRounds.Main

  The program. The files that its arguments name are read into a tree, the command line
  is carried out on it, and what has changed in the tree is written back; the log goes to
  the standard error output.
-/

import ClusterRounds.CommandLine.Run
import ClusterRounds.Files.Stored

namespace ClusterRounds.Main

open Files

/-! ## Reading the files -/

/-- The texts of arguments that may be paths: an argument, or what stands behind an equals sign. -/
def pathTexts (args : List String) : List String :=
  args ++ args.filterMap fun a => (CommandLine.cutAtEquals a).map (·.2)

/-- The places on the way along steps, and at their end. -/
def placesOn : List String → List String → List (List String)
  | _, [] => []
  | here, step :: rest =>
    let next :=
      if step = ".." then Tree.above here else if step = "." then here else here ++ [step]
    next :: placesOn next rest

/-- The locations that may be meant by a text: itself, where a checkpoint is written first, where an
    array is stored, and where a packed table can be. -/
def locationsOf (s : String) : List String :=
  let p := Path.ofText s
  [s, (stagingPath p).text, (Save.arrayPath p).text] ++ Packing.locations p.text

/-- The places that a text may touch. -/
def placesOf (s : String) : List (List String) :=
  (locationsOf s).flatMap fun location => placesOn [] (Path.stepsOf location)

def pathOf : List String → String
  | [] => "."
  | "/" :: rest => "/" ++ "/".intercalate rest
  | steps => "/".intercalate steps

/-- What can be read from a handle; from that of a directory nothing can. -/
def readAll (handle : IO.FS.Handle) : IO Found :=
  tryCatch (do return .file (.ofOctets (← handle.readBinToEnd))) fun _ => return .directory

def look (place : List String) : IO Found :=
  tryCatch (do readAll (← IO.FS.Handle.mk (pathOf place) .read)) fun _ => return .absent

def addPlace (t : Tree) (place : List String) : IO Tree := do
  match ← look place with
  | .directory => return { t with directories := t.directories ++ [place] }
  | .file c => return t.put place c
  | _ => return t

/-- The tree of all files that arguments name. -/
def readTree (args : List String) : IO Tree := do
  let places := ((pathTexts args).flatMap placesOf).eraseDups
  places.foldlM addPlace ⟨[[], ["/"]], []⟩

/-! ## Writing the files -/

/-- Writes what differs between two trees. -/
def writeTree (before after : Tree) : IO Unit := do
  for place in after.directories do
    if !before.isDirectory place then IO.FS.createDirAll (pathOf place)
  for (place, content) in after.files do
    let octets := content.octets
    if (before.fileAt? place).map (·.octets.data) ≠ some octets.data then
      IO.FS.writeBinFile (pathOf place) octets
  for (place, _) in before.files do
    if (after.fileAt? place).isNone then IO.FS.removeFile (pathOf place)

/-! ## Telling the user -/

def optionNames (known : CommandLine.Known) : String :=
  " ".intercalate ((known.map (·.1)).filter fun name => name.startsWith "--")

def help : String :=
  "usage: fit --k K " ++ optionNames CommandLine.fitOptions
    ++ "\n       generate --output OUTPUT " ++ optionNames CommandLine.generateOptions

def twoDigits (n : Nat) : String := Number.paddedDigits 2 n

def timeText (seconds : Nat) : String :=
  twoDigits (seconds / 3600) ++ ":" ++ twoDigits (seconds / 60 % 60) ++ ":" ++ twoDigits (seconds % 60)

/-- The status of an end; what has to be shown is shown. -/
def report : CommandLine.Exit → IO UInt32
  | .status code printsHelp => do
    if printsHelp then IO.println help
    return UInt32.ofNat code
  | .usage code => do
    if code = 0 then IO.println help else IO.eprintln help
    return UInt32.ofNat code
  | .defect f => do
    IO.eprintln (f.message.getD "The run ended by a value that cannot be worked with.")
    return 1

/-- Carries out the command line. Rounds are not timed. -/
def run (args : List String) : IO UInt32 := do
  let start ← IO.monoMsNow
  let tree ← readTree args
  let (exit, world) := CommandLine.run args ⟨tree, .stepping 0, []⟩
  let time := timeText (((← IO.monoMsNow) - start) / 1000)
  for line in world.log do
    IO.eprint (line.stamped time)
  writeTree tree world.tree
  report exit

end ClusterRounds.Main

/-- The program's entry. -/
def main (args : List String) : IO UInt32 := ClusterRounds.Main.run args
