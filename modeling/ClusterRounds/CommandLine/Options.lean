/-
  ClusterRounds.CommandLine.Options

  Reading the arguments of a mode. Every option has a long name; an unambiguous
  beginning of one is enough, and a value can follow behind an equals sign. All
  arguments are sorted into options and values before anything is done with them; then
  they are taken from left to right, and the first help ends everything.
-/

import ClusterRounds.Value.Basic

namespace ClusterRounds.CommandLine

open Number

inductive Taking where
  | nothing
  | help
  | text
  | integer
  | float
deriving DecidableEq, Repr

/-- The options that a mode knows, by name. -/
abbrev Known := List (String × Taking)

/-- What an argument holds besides the name of an option. -/
inductive Attached where
  | nothing
  /-- A value behind an equals sign. -/
  | value (s : String)
  /-- Letters behind a short name. -/
  | letters (s : String)
deriving DecidableEq, Repr

inductive Sorted where
  | value (s : String)
  | option (name : String) (taking : Taking) (attached : Attached)
  | unknown (s : String)
  /-- Two dashes: from here on everything is a value, which no option takes. -/
  | separator
deriving DecidableEq, Repr

/-- Why arguments are not read to the end. -/
inductive Ending where
  | help
  | badUsage
deriving DecidableEq, Repr

/-! ## Sorting -/

/-- Is it a negative number: digits, or digits on both sides or behind a point? -/
def isNegativeNumber (cs : List Char) : Bool :=
  let isDigit (c : Char) := (Text.digitValue? c).isSome
  match cs with
  | '-' :: rest =>
    let whole := rest.takeWhile isDigit
    match rest.dropWhile isDigit with
    | [] => !whole.isEmpty
    | ['\n'] => !whole.isEmpty
    | '.' :: more =>
      let fraction := more.takeWhile isDigit
      !fraction.isEmpty && (more.dropWhile isDigit = [] || more.dropWhile isDigit = ['\n'])
    | _ => false
  | _ => false

/-- A text cut at its first equals sign. -/
def cutAtEquals (s : String) : Option (String × String) :=
  let name := s.toList.takeWhile (· ≠ '=')
  match s.toList.dropWhile (· ≠ '=') with
  | [] => none
  | _ :: rest => some (String.ofList name, String.ofList rest)

/-- The options that a text can stand for, if it is the beginning of their names. A single dash only
    fits a short name, behind which there can be letters. -/
def candidates (known : Known) (s : String) : List Sorted :=
  match s.toList with
  | '-' :: '-' :: _ =>
    let (beginning, attached) :=
      match cutAtEquals s with
      | some (name, value) => (name, Attached.value value)
      | none => (s, .nothing)
    (known.filter fun o => beginning.toList.isPrefixOf o.1.toList).map fun o =>
      .option o.1 o.2 attached
  | '-' :: c :: rest =>
    let short := String.ofList ['-', c]
    (known.filter (·.1 = short)).map fun o => .option o.1 o.2 (.letters (String.ofList rest))
  | _ => []

/-- Sorts one argument; none if it can stand for several options. -/
def sort? (known : Known) (s : String) : Option Sorted :=
  if !s.startsWith "-" || s = "-" then some (.value s)
  else
    match known.lookup s with
    | some taking => some (.option s taking .nothing)
    | none =>
      -- a name that is complete wins over those that it begins
      let exact := (cutAtEquals s).bind fun (name, value) =>
        (known.lookup name).map fun taking => Sorted.option name taking (.value value)
      match exact with
      | some o => some o
      | none =>
        match candidates known s with
        | [o] => some o
        | [] =>
          -- what looks like a number, or has blanks in it, is no option
          if isNegativeNumber s.toList || s.toList.contains ' ' then some (.value s)
          else some (.unknown s)
        | _ => none

def sortAll (known : Known) : List String → Option (List Sorted)
  | [] => some []
  | s :: rest =>
    if s = "--" then some (.separator :: rest.map .value)
    else do return (← sort? known s) :: (← sortAll known rest)

/-! ## Taking -/

def valueOf (taking : Taking) (s : String) : Option Value :=
  match taking with
  | .text => some (.text s)
  | .integer => (integer? s).map .int
  | .float => (float? s).map .float
  | _ => none

/-- How a help ends the arguments. What follows a short name, behind an equals sign or not, are more
    short names, of which only the help takes no value; behind a long one there can be nothing. -/
def helpEnding (name : String) : Attached → Ending
  | .nothing => .help
  | .value s | .letters s =>
    if name = "-h" && !s.isEmpty && s.toList.all (· = 'h') then .help else .badUsage

/-- Takes options from left to right: what was set, and whether there was something that nobody
    takes. -/
def take : List Sorted → Except Ending (List (String × Value) × Bool)
  | [] => .ok ([], false)
  | .value _ :: rest | .unknown _ :: rest => do
    let (set, _) ← take rest
    return (set, true)
  | .separator :: _ => .ok ([], true)
  | .option name .help attached :: _ => .error (helpEnding name attached)
  | .option name .nothing .nothing :: rest => do
    let (set, extra) ← take rest
    return ((name, .bool true) :: set, extra)
  | .option _ .nothing _ :: _ => .error .badUsage
  | .option name taking (.value text) :: rest =>
    match valueOf taking text with
    | none => .error .badUsage
    | some v => do
      let (set, extra) ← take rest
      return ((name, v) :: set, extra)
  | .option name taking .nothing :: .value text :: rest =>
    match valueOf taking text with
    | none => .error .badUsage
    | some v => do
      let (set, extra) ← take rest
      return ((name, v) :: set, extra)
  | .option _ _ _ :: _ => .error .badUsage

/-- The options that arguments set; the last one of a name counts. Options that are required have to
    be there, and everything has to be taken. -/
def read (known : Known) (required : List String) (args : List String) :
    Except Ending (List (String × Value)) := do
  let some sorted := sortAll known args | throw .badUsage
  let (set, extra) ← take sorted
  if extra || !required.all fun r => set.any (·.1 = r) then throw .badUsage
  return set.reverse

end ClusterRounds.CommandLine
