/-
  ClusterRounds.Log.Basic

  Log lines: a level and a text. A logger passes on lines from a level on; a level of
  zero means that of warnings. What happens in a run has one line each, the questions
  to the criterion apart.
-/

import ClusterRounds.Iteration.Session

namespace ClusterRounds

open Number

abbrev Level := Int

namespace Level

def debug : Level := 10
def info : Level := 20
def warning : Level := 30
def error : Level := 40
def critical : Level := 50

def names : List (Level × String) :=
  [(0, "NOTSET"), (debug, "DEBUG"), (info, "INFO"), (warning, "WARNING"), (error, "ERROR"),
    (critical, "CRITICAL")]

/-- The name of a level; others are named by their number. -/
def name (l : Level) : String := (names.lookup l).getD ("Level " ++ toString l)

/-- The level of a name, short forms included. -/
def ofName? (s : String) : Option Level :=
  match s with
  | "WARN" => some warning
  | "FATAL" => some critical
  | s => (names.find? (·.2 = s)).map (·.1)

/-- The levels of lines behind the tag of a run, as they are asked for. -/
def tagged : List (String × Level) := [("info", info), ("warning", warning), ("error", error)]

/-- The level that is asked for behind the tag of a run. There are no others. -/
def ofTagged (s : String) : Except OperandFault Level :=
  (tagged.lookup s).elim (.error .missingPart) .ok

/-- The level that a value stands for: its number or its name. -/
def ofValue : Value → Except OperandFault Level
  | .int l => .ok l
  | .bool b => .ok (Quantity.ofFlag b)
  | .text s => (ofName? s).elim (.error .unknownName) .ok
  | _ => .error .wrongKind

/-- Does a logger at a threshold pass on a line of the level? -/
def passes (l threshold : Level) : Bool :=
  0 < l && (if threshold = 0 then warning else threshold) ≤ l

end Level

structure Line where
  level : Level
  text : String
deriving DecidableEq, Repr

namespace Line

def shown (l : Line) : String := l.level.name ++ ": " ++ l.text

/-- A line as it is written out, after the time. -/
def stamped (time : String) (l : Line) : String := "[" ++ time ++ "] " ++ l.shown ++ "\n"

/-- Does a row end at the character when a text is cut into rows? -/
def endsRow (c : Char) : Bool :=
  ['\n', '\r', '\x0b', '\x0c', '\x1c', '\x1d', '\x1e', '\u0085', '\u2028', '\u2029'].contains c

/-- The rows of a text. A carriage return and a line feed end one row together. -/
def rowsOf : List Char → List (List Char)
  | [] => [[]]
  | '\r' :: '\n' :: rest => [] :: rowsOf rest
  | c :: rest =>
    if endsRow c then [] :: rowsOf rest
    else
      match rowsOf rest with
      | [] => [[c]]
      | row :: rows => (c :: row) :: rows

def rows (l : Line) : List String := (rowsOf l.shown.toList).map String.ofList

def tagged (tag : Option String) (l : Line) : Line :=
  match tag with
  | none => l
  | some tag => { l with text := tag ++ " " ++ l.text }

end Line

/-- The tag of a run: the size of the data, the number of clusters and of partitions. -/
def tagText (points width clusters partitions : String) : String :=
  "[N=" ++ points ++ " D=" ++ width ++ " K=" ++ clusters ++ " P=" ++ partitions ++ "]"

def runTag (points width clusters partitions : Int) : String :=
  tagText (toString points) (toString width) (toString clusters) (toString partitions)

def RoundReport.text (r : RoundReport Float) : String :=
  "  Round " ++ toString r.round ++ "/" ++ toString r.limit
    ++ (if r.converged then " (converged)" else "")
    ++ " (T_assign=" ++ fixedText 6 r.assign ++ "s, T_update=" ++ fixedText 6 r.update
    ++ "s, max_change=" ++ scientificText 2 r.change ++ ")"

def Event.line? : Event Float → Option Line
  | .started partitions k limit =>
    some ⟨.info, "Starting iteration: " ++ toString partitions ++ " partitions, k=" ++ toString k
      ++ ", max_iterations=" ++ toString limit⟩
  | .restored id points sets lastEpoch =>
    some ⟨.info, "Partition " ++ toString id ++ " restored: " ++ toString points ++ " points, "
      ++ toString sets ++ " pending centroid set(s), last_epoch=" ++ shownRound lastEpoch⟩
  | .resumed round partitions =>
    some ⟨.info, "Resuming iteration at round " ++ toString round ++ " from "
      ++ toString partitions ++ " restored partitions"⟩
  | .saved round location =>
    some ⟨.info, "  Checkpoint for round " ++ toString round ++ " saved to " ++ location⟩
  | .retained clusters =>
    some ⟨.warning, "  Empty clusters " ++ shownInts clusters ++ ": previous centroids retained"⟩
  | .asked _ _ _ => none
  | .roundDone report => some ⟨.info, report.text⟩
  | .finished rounds => some ⟨.info, "Iteration terminated after " ++ toString rounds ++ " rounds"⟩

def journalLines (tag : Option String) (journal : List (Event Float)) : List Line :=
  (journal.filterMap Event.line?).map (Line.tagged tag)

end ClusterRounds
