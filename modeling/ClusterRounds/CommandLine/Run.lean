/-
  ClusterRounds.CommandLine.Run

  The program on a tree of files: fitting a model to the points of a file, taking up a
  checkpoint, and generating points. Failures with a cause that the user can mend are
  reported in the log and by the exit status; any other ends the program.
-/

import ClusterRounds.CommandLine.Options
import ClusterRounds.Dataset.Blobs
import ClusterRounds.Dataset.Load
import ClusterRounds.Dataset.Save
import ClusterRounds.Files.Place
import ClusterRounds.Report

namespace ClusterRounds.CommandLine

open Files

variable [Machine]

/-! ## Failures -/

/-- The name under which a failure is reported; failures without one are defects. -/
def title? : Failure → Option String
  | .configuration _ => some "ConfigurationError"
  | .protocol _ => some "ProtocolViolationError"
  | .recovery _ => some "RecoveryError"
  | .unreadableInput _ => some "InputError"
  | .noInput | .noResult => some "KMeansError"
  | .file fault => if fault.isOfFiles then some fault.title else none
  | _ => none

/-- The text of a reported failure. What has been read from arguments and files is never too long or
    nested too deeply to be written. -/
def words : Failure → String
  | .file fault => fault.message
  | f => f.text?.getD ""

def reportLine? (f : Failure) : Option Line :=
  (title? f).map fun title => ⟨.error, title ++ ": " ++ words f⟩

/-- The operand faults that say that a value is of the wrong kind, out of all bounds, or not there at
    all. The others say that it does not make sense. -/
def gravest : List OperandFault :=
  [.wrongKind, .notASingleNumber, .tooLarge, .missingAxis, .rowOutOfRange, .missingField,
    .missingPart, .noRoom, .noRoomForArray]

/-- Is a failure of loading due to the file, rather than to a value of a kind that cannot be a
    point? -/
def isDueToFile : Failure → Bool
  | .file _ => true
  | .content fault => [.notUtf8, .notJson, .notAnArray, .notPacked, .brokenBlocks].contains fault
  | .operand fault => !gravest.contains fault
  | _ => false

/-! ## Modes -/

/-- Where the program stands: the files, the clock, and the log so far. -/
structure World where
  tree : Tree
  clock : Clock
  log : List Line

def fitOptions : Known :=
  [("-h", .help), ("--help", .help), ("--input", .text), ("--k", .integer),
    ("--max-iterations", .integer), ("--seed", .integer), ("--distance-measure", .text),
    ("--features-column", .text), ("--tol", .float), ("--partitions", .integer),
    ("--workers", .integer), ("--checkpoint", .text), ("--checkpoint-every", .integer),
    ("--resume", .nothing), ("--output", .text)]

def generateOptions : Known :=
  [("-h", .help), ("--help", .help), ("--output", .text), ("--N", .integer), ("--D", .integer),
    ("--K", .integer), ("--cluster-std", .float), ("--seed", .integer)]

/-- The text of an option, empty if it was not set. -/
def textOption (options : Arguments) (name : String) : String :=
  match options.lookup name with
  | some (.text s) => s
  | _ => ""

/-- The plan that the options of a fit describe, and the path of its checkpoint if there is to be
    one. -/
def planOf (options : Arguments) : Outcome (Plan Float × Option Path) := do
  let option (name : String) (default : Value) := options.get name default
  let registry : Registry Float := .standard
  let settings ← Settings.ofArguments registry
    [("k", option "--k" .null), ("max_iterations", option "--max-iterations" (.int 20)),
      ("seed", option "--seed" (.int 0)),
      ("distance_measure", option "--distance-measure" (.text "euclidean")),
      ("features_column", option "--features-column" (.text "features")),
      ("tol", option "--tol" .null)]
  let execution ← Execution.ofArguments
    [("n_partitions", option "--partitions" (.int Execution.processors)),
      ("n_workers", option "--workers" (.int Execution.processors))]
  let location := textOption options "--checkpoint"
  let often := option "--checkpoint-every" (.int 1)
  let checkpoint ←
    if location.isEmpty then pure none
    else some <$> checkpointing [("path", .text location), ("every_n_rounds", often)]
  let measure ← registry.get (.text settings.measure)
  return ({ settings, execution, measure, period := checkpoint.map (·.2) }, checkpoint.map (·.1))

/-- The points of the input, where a failure of its file is one of the input. -/
def loadInput (tree : Tree) (options : Arguments) (column : Value) : Outcome (Tensor Float) :=
  match options.lookup "--input" with
  | some (.text input) =>
    match Load.points tree (.ofText input) column with
    | .ok points => .ok points
    | .error f => .error (if isDueToFile f then .unreadableInput input else f)
  | _ => .error .noInput

def fitted (tree : Tree) (options : Arguments) (e : Estimator Float) : Fitted Float :=
  if (options.lookup "--resume").isSome then e.resume
  else
    match loadInput tree options e.plan.settings.featuresColumn with
    | .error f => ⟨.error f, e, [], none⟩
    | .ok points => e.fit points none

/-- Fits a model and reports on it. -/
def fit (options : Arguments) (w : World) : Outcome Unit × World :=
  match planOf options with
  | .error f => (.error f, w)
  | .ok (plan, place) =>
    let slot := place.elim (.empty "") (slotAt w.tree)
    let done := fitted w.tree options ⟨plan, 0, slot, w.clock⟩
    let tag := done.tag.map fun (n, d, k, p) => runTag n d k p
    let w : World :=
      { tree := place.elim w.tree fun p => afterUse w.tree p done.estimator.slot
        clock := done.estimator.clock
        log := w.log ++ journalLines tag done.journal }
    match done.answer with
    | .error f => (.error f, w)
    | .ok model =>
      let (told, tree, lines) := Report.tell w.tree model (textOption options "--output")
      (told, { w with tree, log := w.log ++ lines })

/-- Generates points and saves them. -/
def generate (options : Arguments) (w : World) : Outcome Unit × World :=
  let args : Arguments :=
    [("N", options.get "--N" (.int 10000)), ("D", options.get "--D" (.int 2)),
      ("K", options.get "--K" (.int 4)), ("cluster_std", options.get "--cluster-std" (.float 1)),
      ("seed", options.get "--seed" (.int 42))]
  match Blobs.ofArguments args >>= Blobs.generate with
  | .error f => (.error f, w)
  | .ok made =>
    let path := Path.ofText (textOption options "--output")
    let (saved, tree) := Save.points w.tree path made.points (Blobs.metadata args)
    let line : Line :=
      ⟨.info, "Dataset N=" ++ (args.get "N" .null).plain ++ " D=" ++ (args.get "D" .null).plain
        ++ " K=" ++ (args.get "K" .null).plain ++ " saved to " ++ path.text⟩
    (saved, { w with tree, log := w.log ++ (if saved.toOption.isSome then [line] else []) })

/-! ## The program -/

inductive Exit where
  | status (code : Nat) (printsHelp : Bool)
  /-- While it reads its arguments, with a status. -/
  | usage (code : Nat)
  | defect (f : Failure)

/-- The end that belongs to the outcome of a mode; a reported failure adds a line. -/
def finish (result : Outcome Unit × World) : Exit × World :=
  match result with
  | (.ok (), w) => (.status 0 false, w)
  | (.error f, w) =>
    match reportLine? f with
    | some line => (.status 2 false, { w with log := w.log ++ [line] })
    | none => (.defect f, w)

/-- The end of arguments that are not read to the end. -/
def Ending.exit : Ending → Exit
  | .help => .usage 0
  | .badUsage => .usage 2

/-- Carries out a mode with its arguments. What came before the mode was in vain if anything. -/
def runMode (known : Known) (required : List String) (stray : Bool)
    (mode : Arguments → World → Outcome Unit × World) (args : List String) (w : World) :
    Exit × World :=
  match read known required args with
  | .error ending => (ending.exit, w)
  | .ok options => if stray then (.usage 2, w) else finish (mode options w)

/-- The options that stand before a mode. -/
def mainOptions : Known := [("-h", .help), ("--help", .help)]

/-- Reads arguments up to the mode. -/
def runFrom (stray : Bool) (w : World) : List String → Exit × World
  | [] => (if stray then .usage 2 else .status 1 true, w)
  | arg :: rest =>
    if arg = "--" then (.usage 2, w)
    else
      match sort? mainOptions arg with
      | none => (.usage 2, w)
      | some (.value "fit") => runMode fitOptions ["--k"] stray fit rest w
      | some (.value "generate") => runMode generateOptions ["--output"] stray generate rest w
      | some (.option name _ attached) => ((helpEnding name attached).exit, w)
      | some (.unknown _) => runFrom true w rest
      | some _ => (.usage 2, w)

def run (args : List String) (w : World) : Exit × World := runFrom false w args

end ClusterRounds.CommandLine
