/-
  ClusterRounds.Files.Tree

  The files that a program sees: directories, and files with their contents. A file
  holds text, octets, an array, a checkpoint, or some other stored object. Reading and
  writing fail as they do on a disk: for want of a directory, because a directory or a
  file is in the way, or because a text is no path.
-/

import ClusterRounds.Dataset.ElementType
import ClusterRounds.Files.Path
import ClusterRounds.Snapshot

namespace ClusterRounds.Files

inductive Content where
  | text (s : String)
  | bytes (b : ByteArray)
  | array (type : ElementType) (t : Tensor Float)
  | checkpoint (s : Snapshot Float)
  | foreign

/-- Directories and files, by their steps from where the program runs. -/
structure Tree where
  directories : List (List String)
  files : List (List String × Content)

inductive Found where
  | absent
  | directory
  | file (c : Content)
  /-- A file stands where a directory would have to be. -/
  | obstructed
  /-- A name on the way is too long. -/
  | unnameable

namespace Tree

/-- The directory of the program, one directory in it, and the root of all paths. -/
def ofDirectory (name : String) : Tree := ⟨[[], [name], ["/"]], []⟩

/-- Is it a directory? All that is above where the program runs is one. -/
def isDirectory (t : Tree) (at_ : List String) : Bool :=
  t.directories.contains at_ || at_.all (· = "..")

def fileAt? (t : Tree) (at_ : List String) : Option Content := t.files.lookup at_

/-- The place above one. Nothing is above the root, and above where the program runs there are steps
    upwards. -/
def above (here : List String) : List String :=
  match here.getLast? with
  | none | some ".." => here ++ [".."]
  | some "/" => here
  | some _ => here.dropLast

/-- What is at steps from a place that has been reached. -/
def walk (t : Tree) : List String → List String → Found × List String
  | here, [] =>
    if t.isDirectory here then (.directory, here)
    else (((t.fileAt? here).map Found.file).getD .absent, here)
  | here, step :: rest =>
    if t.isDirectory here then
      if step = ".." then walk t (above here) rest
      else if step = "." then walk t here rest
      else if Path.longestName < step.utf8ByteSize then (.unnameable, here)
      else walk t (here ++ [step]) rest
    else if (t.fileAt? here).isSome then (.obstructed, here)
    else (.absent, here ++ step :: rest)

/-- What is at a path, and where that is without detours. -/
def find (t : Tree) (location : String) : Found × List String := t.walk [] (Path.stepsOf location)

/-! ## Looking -/

/-- What is at a path; it may be that it cannot be looked at. -/
def look (t : Tree) (location : String) : Except FileFault Found :=
  match Path.faultOf? location with
  | some fault => .error fault
  | none =>
    match (t.find location).1 with
    | .unnameable => .error (.nameTooLong location)
    | found => .ok found

/-- Is there anything at a path? At what is no path there is nothing, and that a name is too long is
    an error of its own. -/
def isThere (t : Tree) (location : String) : Except FileFault Bool :=
  match t.look location with
  | .ok .directory | .ok (.file _) => .ok true
  | .ok _ => .ok false
  | .error fault => if fault.isOfFiles then .error fault else .ok false

/-- Is there anything at a path that can be looked at? -/
def isOccupied (t : Tree) (location : String) : Bool :=
  match t.isThere location with
  | .ok b => b
  | .error _ => false

def read (t : Tree) (location : String) : Except FileFault Content := do
  match ← t.look location with
  | .file c => .ok c
  | .directory => .error (.isDirectory location)
  | .absent => .error (.notFound location)
  | .obstructed | .unnameable => .error (.notDirectory location)

/-! ## Writing -/

/-- Puts a file at its place. -/
def put (t : Tree) (at_ : List String) (c : Content) : Tree :=
  { t with files := (at_, c) :: t.files.filter (·.1 ≠ at_) }

/-- The place of the directory that a path's last step starts from. -/
def directoryOf (t : Tree) (location : String) (steps : List String) :
    Except FileFault (List String) :=
  match t.walk [] steps.dropLast with
  | (.directory, here) => .ok here
  | (.file _, _) | (.obstructed, _) => .error (.notDirectory location)
  | (.absent, _) => .error (.notFound location)
  | (.unnameable, _) => .error (.nameTooLong location)

/-- Writes a file. Its directory has to be there, and a slash at the end only fits a directory. -/
def write (t : Tree) (location : String) (c : Content) : Except FileFault Tree :=
  match Path.faultOf? location with
  | some fault => .error fault
  | none => do
    let steps := Path.stepsOf location
    let slashed := location.endsWith "/"
    discard (t.directoryOf location (if slashed then steps.dropLast else steps))
    if slashed then throw (.isDirectory location)
    match t.find location with
    | (.directory, _) => .error (.isDirectory location)
    | (.obstructed, _) => .error (.notDirectory location)
    | (.unnameable, _) => .error (.nameTooLong location)
    | (.file _, at_) | (.absent, at_) => .ok (t.put at_ c)

def remove (t : Tree) (location : String) : Tree :=
  match t.find location with
  | (.file _, at_) => { t with files := t.files.filter (·.1 ≠ at_) }
  | _ => t

/-! ## Directories -/

def makeDirectory (t : Tree) (location : String) : Except FileFault Tree :=
  match Path.faultOf? location with
  | some fault => .error fault
  | none => do
    let steps := Path.stepsOf location
    let here ← t.directoryOf location steps
    match steps.getLast? with
    | none | some "/" | some "." | some ".." => .error (.alreadyExists location)
    | some step =>
      if Path.longestName < step.utf8ByteSize then throw (.nameTooLong location)
      let place := here ++ [step]
      if t.isDirectory place || (t.fileAt? place).isSome then throw (.alreadyExists location)
      return { t with directories := t.directories ++ [place] }

/-- The outcome of making a directory that may be there already. -/
def orStanding (t : Tree) (location : String) (made : Except FileFault Tree) :
    Except FileFault Tree :=
  match made with
  | .ok t => .ok t
  | .error fault =>
    match t.look location with
    | .ok .directory => .ok t
    | _ => .error fault

/-- Makes a directory and as many of those above it as are missing, of a number of them. -/
def makeUpTo (t : Tree) : Nat → Path → Except FileFault Tree
  | 0, p => t.orStanding p.text (t.makeDirectory p.text)
  | levels + 1, p =>
    match t.makeDirectory p.text with
    | .error (.notFound _) => do
      let t ← t.makeUpTo levels p.parent
      t.orStanding p.text (t.makeDirectory p.text)
    | made => t.orStanding p.text made

/-- Makes a directory and those above it, as far as they are missing. -/
def makeDirectories (t : Tree) (p : Path) : Except FileFault Tree := t.makeUpTo p.parts.length p

/-- The files below a directory, by their paths from there, in order. -/
def filesBelow (t : Tree) (directory : List String) : List String :=
  (t.files.filterMap fun f =>
    if directory.isPrefixOf f.1 then some ("/".intercalate (f.1.drop directory.length))
    else none).mergeSort fun a b => !(decide (b < a))

end Tree

end ClusterRounds.Files
