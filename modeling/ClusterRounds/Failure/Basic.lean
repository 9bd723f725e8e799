/-
  ClusterRounds.Failure.Basic

  Everything that can end a step, by cause: bad settings or inputs, a broken rule of
  the rounds, a checkpoint that cannot be taken up, bad arguments, files. Each family
  has one function that words its causes, and one that says which of the given values
  the words write out; `Failure.message` joins them. A cause without a text of its own
  has no message, and neither has one that would have to write an integer of too many
  digits or a value that is nested too deeply. What comes out in its place is then that
  the text could not be made; a failure without a message stands for that as well.
-/

import ClusterRounds.Failure.Operand
import ClusterRounds.Phase
import ClusterRounds.Settings.Basic
import ClusterRounds.Tensor.Shape

namespace ClusterRounds

open Text

/-- A round number where there may be none. -/
def shownRound (epoch : Option Int) : String := epoch.elim "None" toString

def shownInts (ids : List Int) : String := bracketed (ids.map toString)

/-! ## Settings and inputs -/

inductive ConfigurationFault where
  | notPositiveInteger (setting : String) (given : Value)
  | seedNotInteger (given : Value)
  | negativeTolerance (given : Value)
  | negativeThreshold
  | emptyColumn
  | unknownMeasure (given : Value) (available : List String)
  | unknownPolicy (given : Value)
  | notPositive (setting : String)
  | unnamedMeasure (className : String)
  | noCheckpoint
  | noSnapshot
  | otherSettings (stored current : Settings)
  | noPartitions
  | centroidShape (k : Nat) (shape : Shape)
  | partitionShape (id : Nat) (shape : Shape)
  | partitionWidth (id width expected : Nat)
  | queryShape (width : Nat) (shape : Shape)
  | datasetShape (shape : Shape)
  | sampleShape (shape : Shape)
  | sampleSize (k : Value)
  | sampleTooLarge (k : Value) (points : Nat)
  | noField (record : Nat) (column : Value)
  | recordWidth (record width expected : Nat)
  | fileShape (path : String) (shape : Shape)

def ConfigurationFault.message : ConfigurationFault → String
  | notPositiveInteger setting given =>
    setting ++ " must be a positive integer, got " ++ given.shown
  | seedNotInteger given => "seed must be an integer, got " ++ given.shown
  | negativeTolerance given => "tol must be non-negative, got " ++ given.shown
  | negativeThreshold => "tol must be non-negative"
  | emptyColumn => "features_column must be a non-empty string"
  | unknownMeasure given available =>
    "Unsupported distance measure: " ++ given.shown ++ ". Supported options: "
      ++ ", ".intercalate available
  | unknownPolicy given => "Unsupported empty cluster policy: " ++ given.shown
  | notPositive setting => setting ++ " must be positive"
  | unnamedMeasure className => className ++ " has no NAME"
  | noCheckpoint => "resume() requires a checkpoint config"
  | noSnapshot => "resume() without snapshot requires a checkpoint config"
  | otherSettings stored current =>
    "Checkpoint was written with " ++ stored.shown ++ ", controller has " ++ current.shown
  | noPartitions => "At least one partition is required"
  | centroidShape k shape =>
    "Expected initial centroids of shape (k=" ++ toString k ++ ", D), got " ++ Shape.shown shape
  | partitionShape id shape =>
    "Partition " ++ toString id ++ " must be 2-D, got shape " ++ Shape.shown shape
  | partitionWidth id width expected =>
    "Partition " ++ toString id ++ " has D=" ++ toString width
      ++ ", initial centroids have D=" ++ toString expected
  | queryShape width shape =>
    "Expected points of shape (N, " ++ toString width ++ "), got " ++ Shape.shown shape
  | datasetShape shape => "X must be 2-D, got shape " ++ Shape.shown shape
  | sampleShape shape => "Points must be 2-D, got shape " ++ Shape.shown shape
  | sampleSize k => "k must be positive, got " ++ k.plain
  | sampleTooLarge k points =>
    "Cannot select " ++ k.plain ++ " initial centroids from " ++ toString points ++ " points"
  | noField record column =>
    "Record " ++ toString record ++ " has no field " ++ column.shown
  | recordWidth record width expected =>
    "Record " ++ toString record ++ " has dimension " ++ toString width ++ ", expected "
      ++ toString expected
  | fileShape path shape =>
    "Expected 2-D points in " ++ path ++ ", got shape " ++ Shape.shown shape

/-- What is counted in memory, as the axes of an array are, is never too long to be written. -/
def ConfigurationFault.named : ConfigurationFault → List Value
  | notPositiveInteger _ given | seedNotInteger given | negativeTolerance given
  | unknownMeasure given _ | unknownPolicy given | noField _ given => [given]
  | otherSettings stored current => stored.named ++ current.named
  | centroidShape k _ => [.int k]
  | sampleSize k | sampleTooLarge k _ => [k]
  | negativeThreshold | emptyColumn | notPositive _ | unnamedMeasure _ | noCheckpoint | noSnapshot
  | noPartitions | partitionShape .. | partitionWidth .. | queryShape .. | datasetShape _
  | sampleShape _ | recordWidth .. | fileShape .. => []

/-! ## The rules of the rounds -/

/-- What a terminated partition was given. -/
inductive Delivery where
  | points
  | centroids
  | boundary
deriving DecidableEq, Repr

def Delivery.shown : Delivery → String
  | points => "points"
  | centroids => "centroids"
  | boundary => "round boundary"

inductive ProtocolFault where
  | firedAgain (id epoch last : Int)
  | centroidSets (id : Int) (sets : Nat) (epoch : Int)
  | widths (id : Int) (points centroids : Nat)
  | afterTermination (id : Int) (delivery : Delivery)
  | labelOutOfRange (k epoch : Int)
  | roundInFlight (asked : Option Int) (current : Int)
  | wrongArrival (id : Int) (asked current : Option Int)
  | unknownPartition (id : Int)
  | arrivedTwice (id epoch : Int)
  | wrongWait (asked current : Option Int)
  | missing (epoch : Option Int) (ids : List Int)
  | outside (round : Int)
  | timedOut (round : Int) (limit : Value)
  | measure (text : String)

def ProtocolFault.message : ProtocolFault → String
  | firedAgain id epoch last =>
    "Partition " ++ toString id ++ ": round " ++ toString epoch ++ " fired after round "
      ++ toString last
  | centroidSets id sets epoch =>
    "Partition " ++ toString id ++ " received " ++ toString sets
      ++ " list of centroids in round " ++ toString epoch
  | widths id points centroids =>
    "Partition " ++ toString id ++ ": points have D=" ++ toString points
      ++ ", centroids have D=" ++ toString centroids
  | afterTermination id delivery =>
    "Partition " ++ toString id ++ " received " ++ delivery.shown ++ " after termination"
  | labelOutOfRange k epoch =>
    "Cluster id out of range [0, " ++ toString k ++ ") in round " ++ toString epoch
  | roundInFlight asked current =>
    "Round " ++ shownRound asked ++ " opened while round " ++ toString current
      ++ " is still in flight"
  | wrongArrival id asked current =>
    "Partition " ++ toString id ++ " arrived for round " ++ shownRound asked
      ++ ", barrier is at round " ++ shownRound current
  | unknownPartition id => "Unknown partition id " ++ toString id
  | arrivedTwice id epoch =>
    "Partition " ++ toString id ++ " arrived twice for round " ++ toString epoch
  | wrongWait asked current =>
    "Waiting for round " ++ shownRound asked ++ ", barrier is at round " ++ shownRound current
  | missing epoch ids =>
    "Round " ++ shownRound epoch ++ ": partitions " ++ shownInts ids
      ++ " did not reach the barrier"
  | outside round => "Round " ++ toString round ++ " started outside of an iteration"
  | timedOut round limit =>
    "Round " ++ toString round ++ " did not complete within " ++ limit.plain ++ "s"
  | measure text => text

def ProtocolFault.named : ProtocolFault → List Value
  | firedAgain id epoch last => [.int id, .int epoch, .int last]
  | centroidSets id _ epoch | arrivedTwice id epoch => [.int id, .int epoch]
  | widths id _ _ | afterTermination id _ | unknownPartition id => [.int id]
  | labelOutOfRange k epoch => [.int k, .int epoch]
  | roundInFlight asked current => .int current :: asked.toList.map .int
  | wrongArrival id asked current => .int id :: (asked.toList ++ current.toList).map .int
  | wrongWait asked current => (asked.toList ++ current.toList).map .int
  | missing epoch ids => (epoch.toList ++ ids).map .int
  | outside round => [.int round]
  | timedOut round limit => [.int round, limit]
  | measure _ => []

/-! ## Taking up a checkpoint -/

inductive RecoveryFault where
  | notEmpty (id : Int)
  | otherPartition (snapshot id : Int)
  | midRound (id : Int)
  | malformedPoints (id : Int)
  | negativeEpoch (epoch : Int)
  | centroidShape (shape : Shape) (k : Nat)
  | idsNotContiguous (ids : List Int)
  | misfiled (id holds : Int)
  | phase (id : Int) (label : PhaseLabel)
  | pendingSets (id : Int) (sets : Nat) (epoch : Int)
  | alreadyFired (id last epoch : Int)
  | unreadable (location : String)
  | notASnapshot (location : String)
  | notFound (location : String)

def RecoveryFault.message : RecoveryFault → String
  | notEmpty id => "Partition " ++ toString id ++ ": restore into a non-empty assigner"
  | otherPartition snapshot id =>
    "Snapshot of partition " ++ toString snapshot ++ " cannot be restored into partition "
      ++ toString id
  | midRound id =>
    "Partition " ++ toString id ++ ": snapshot taken in the middle of a round"
  | malformedPoints id => "Partition " ++ toString id ++ ": malformed point buffer"
  | negativeEpoch epoch => "Negative epoch in snapshot: " ++ toString epoch
  | centroidShape shape k =>
    "Snapshot centroids shape " ++ Shape.shown shape ++ " does not match k=" ++ toString k
  | idsNotContiguous ids => "Snapshot partition ids are not contiguous: " ++ shownInts ids
  | misfiled id holds => "Partition " ++ toString id ++ " holds the state of " ++ toString holds
  | phase id label => "Partition " ++ toString id ++ " snapshot is in state " ++ label.shown
  | pendingSets id sets epoch =>
    "Partition " ++ toString id ++ " has " ++ toString sets
      ++ " pending centroid sets for round " ++ toString epoch
  | alreadyFired id last epoch =>
    "Partition " ++ toString id ++ " already fired round " ++ toString last
      ++ ", snapshot resumes at round " ++ toString epoch
  | unreadable location => "Cannot read checkpoint " ++ location ++ ": *"
  | notASnapshot location => location ++ " does not contain an iteration snapshot"
  | notFound location => "Checkpoint not found: " ++ location

def RecoveryFault.named : RecoveryFault → List Value
  | notEmpty id | midRound id | malformedPoints id | phase id _ => [.int id]
  | otherPartition snapshot id => [.int snapshot, .int id]
  | negativeEpoch epoch => [.int epoch]
  | centroidShape _ k => [.int k]
  | idsNotContiguous ids => ids.map .int
  | misfiled id holds => [.int id, .int holds]
  | pendingSets id _ epoch => [.int id, .int epoch]
  | alreadyFired id last epoch => [.int id, .int last, .int epoch]
  | unreadable _ | notASnapshot _ | notFound _ => []

/-! ## Arguments -/

inductive ArgumentFault where
  | otherCluster (left right : Int)
  | noPoints (cluster count : Int)
  | previousCount (expected : Int) (given : Nat)
  | clusterOutOfRange (cluster k : Int)
  | averagedTwice (cluster : Int)
  | noParties

def ArgumentFault.message : ArgumentFault → String
  | otherCluster left right =>
    "Cannot merge accumulators of clusters " ++ toString left ++ " and " ++ toString right
  | noPoints cluster count =>
    "Cluster " ++ toString cluster ++ " has count=" ++ toString count ++ ", cannot average"
  | previousCount expected given =>
    "Expected " ++ toString expected ++ " previous centroids, got " ++ toString given
  | clusterOutOfRange cluster k =>
    "Cluster id " ++ toString cluster ++ " out of range [0, " ++ toString k ++ ")"
  | averagedTwice cluster => "Cluster " ++ toString cluster ++ " averaged twice in one round"
  | noParties => "n_partitions must be positive"

def ArgumentFault.named : ArgumentFault → List Value
  | otherCluster left right => [.int left, .int right]
  | noPoints cluster count => [.int cluster, .int count]
  | previousCount expected _ => [.int expected]
  | clusterOutOfRange cluster k => [.int cluster, .int k]
  | averagedTwice cluster => [.int cluster]
  | noParties => []

/-! ## Files -/

inductive FileFault where
  | notFound (path : String)
  | alreadyExists (path : String)
  | isDirectory (path : String)
  | notDirectory (path : String)
  /-- A name on the path, or the path itself, is longer than names can be. -/
  | nameTooLong (path : String)
  /-- A file cannot take the place of a directory. -/
  | overDirectory (source target : String)
  /-- A file cannot take the place of a directory that is only named by the way to it. -/
  | busy (source target : String)
  | nullCharacter
  /-- A text with half a surrogate pair is no path. -/
  | notEncodable
deriving DecidableEq, Repr

/-- The number and the words of a file error, with the quoted path. -/
def FileFault.message : FileFault → String
  | notFound path => "[Errno 2] No such file or directory: " ++ quoted path
  | alreadyExists path => "[Errno 17] File exists: " ++ quoted path
  | isDirectory path => "[Errno 21] Is a directory: " ++ quoted path
  | notDirectory path => "[Errno 20] Not a directory: " ++ quoted path
  | nameTooLong path => "[Errno 36] File name too long: " ++ quoted path
  | overDirectory source target =>
    "[Errno 21] Is a directory: " ++ quoted source ++ " -> " ++ quoted target
  | busy source target =>
    "[Errno 16] Device or resource busy: " ++ quoted source ++ " -> " ++ quoted target
  | nullCharacter | notEncodable => ""

/-- The name of a file error's kind. -/
def FileFault.title : FileFault → String
  | notFound _ => "FileNotFoundError"
  | alreadyExists _ => "FileExistsError"
  | isDirectory _ | overDirectory _ _ => "IsADirectoryError"
  | notDirectory _ => "NotADirectoryError"
  | nameTooLong _ | busy _ _ => "OSError"
  | nullCharacter => "ValueError"
  | notEncodable => "UnicodeEncodeError"

/-- Is it an error of the files, rather than of a text that is no path? -/
def FileFault.isOfFiles : FileFault → Bool
  | nullCharacter | notEncodable => false
  | _ => true

/-- Why the contents of a file are no points. -/
inductive ContentFault where
  | notUtf8
  | notJson
  /-- The lists and records of a document are nested too deeply. -/
  | deepNesting
  | notAnArray
  | endOfFile
  /-- The header of an array opens a bracket or a text that it does not close. -/
  | openHeader
  /-- The contents start like an archive and are none. -/
  | notAnArchive
  /-- An archive is of a version that is not known yet. -/
  | futureArchive
  /-- What was packed does not start as it has to, or does not agree with its checksum. -/
  | notPacked
  /-- The blocks of packed octets do not make sense. -/
  | brokenBlocks
  /-- A stream of packed octets does not make sense. -/
  | brokenStream
  /-- The chain of packed octets does not make sense. -/
  | brokenChain
deriving DecidableEq, Repr

/-! ## All failures -/

inductive Failure where
  | configuration (fault : ConfigurationFault)
  | protocol (fault : ProtocolFault)
  | recovery (fault : RecoveryFault)
  | argument (fault : ArgumentFault)
  | operand (fault : OperandFault)
  | content (fault : ContentFault)
  | file (fault : FileFault)
  /-- The points of a file cannot be loaded. -/
  | unreadableInput (path : String)
  /-- Neither an input nor a checkpoint to resume from was named. -/
  | noInput
  /-- A model that no run has made has nothing to report. -/
  | noResult
  | zeroTime
  /-- The parameters of a generated dataset are out of range. -/
  | datasetParameters
  | worker (text : String)
  /-- A criterion without a bound has not stopped its run. -/
  | endless

namespace Failure

/-- The given values that the text of a failure writes out. -/
def named : Failure → List Value
  | configuration fault => fault.named
  | protocol fault => fault.named
  | recovery fault => fault.named
  | argument fault => fault.named
  | operand _ | content _ | file _ | unreadableInput _ | noInput | noResult | zeroTime
  | datasetParameters | worker _ | endless => []

/-- The text of a failure, where it has one of its own. -/
def text? : Failure → Option String
  | configuration fault => some fault.message
  | protocol fault => some fault.message
  | recovery fault => some fault.message
  | argument fault => some fault.message
  | operand _ => none
  | content _ => none
  | file _ => none
  | unreadableInput path => some ("Cannot load points from " ++ path ++ ": *")
  | noInput => some "--input is required unless --resume is given"
  | noResult => some "Model has no iteration result to report"
  | zeroTime => some "time must be non-zero"
  | datasetParameters => none
  | worker text => some text
  | endless => none

/-- The text of a failure, if all that it names can be written. -/
def message [Machine] (f : Failure) : Option String :=
  f.text?.filter fun _ => f.named.all (·.isWritable Machine.nesting)

end Failure

abbrev Outcome (α : Type) := Except Failure α

/-- An operation on operands, as a step that may fail. -/
def Outcome.ofOperands {α : Type} (x : Except OperandFault α) : Outcome α :=
  x.mapError Failure.operand

end ClusterRounds
