import ClusterRounds.Value.Json
import ClusterRounds.Settings.Check
import ClusterRounds.Aggregate.Local
import ClusterRounds.Aggregate.Reduce
import ClusterRounds.Quality
import ClusterRounds.Collector
import ClusterRounds.Iteration.Run
import ClusterRounds.Log.Basic
import ClusterRounds.Log.Pattern
import ClusterRounds.Dataset.Seeding
import ClusterRounds.Dataset.Records
import ClusterRounds.Dataset.Split
import ClusterRounds.Random.Twister
import ClusterRounds.Files.Place
import ClusterRounds.Files.Stored
import ClusterRounds.Main
import ClusterRounds.Dataset.Load
import ClusterRounds.Dataset.Save
import ClusterRounds.Dataset.Blobs
import ClusterRounds.Dataset.ElementType
import ClusterRounds.CommandLine.Run
import ClusterRounds.Assigner
import ClusterRounds.Criterion
import ClusterRounds.Proofs.Boundary
import ClusterRounds.Proofs.Interleaving
import ClusterRounds.Proofs.Outcome
import ClusterRounds.Proofs.Course
import ClusterRounds.Proofs.Stopping
import ClusterRounds.Proofs.Rounds
import ClusterRounds.Proofs.Stages
import ClusterRounds.Proofs.Runs
import ClusterRounds.Proofs.Resumption
import ClusterRounds.Proofs.Scheduling
import ClusterRounds.Proofs.Lloyd.Reference
import ClusterRounds.Proofs.Lloyd.Sums
import ClusterRounds.Proofs.Lloyd.Merge
import ClusterRounds.Proofs.Splitting
import ClusterRounds.Proofs.Lloyd.Round
import ClusterRounds.Proofs.Lloyd.Refinement
import ClusterRounds.Proofs.Lloyd.Descent
import ClusterRounds.Proofs.History
import ClusterRounds.Proofs.BarrierHistory
import ClusterRounds.Proofs.Labels
import ClusterRounds.Proofs.AssignerHistory
import ClusterRounds.Proofs.Partials
import ClusterRounds.Proofs.Unfailing
import ClusterRounds.Proofs.Counting
import ClusterRounds.Proofs.Operations
import ClusterRounds.Proofs.Restoration
import ClusterRounds.Proofs.Ending
import ClusterRounds.Proofs.Acceptance
import ClusterRounds.Proofs.Release
import ClusterRounds.Proofs.HandingOut
import ClusterRounds.Proofs.Passage
import ClusterRounds.Proofs.Safekeeping
import ClusterRounds.Proofs.Agreement
import ClusterRounds.Proofs.Reuse
import ClusterRounds.Proofs.Lloyd.Reorder
import ClusterRounds.Proofs.FixedPoint
import ClusterRounds.Proofs.Tallies
import ClusterRounds.Proofs.Retention
import ClusterRounds.Proofs.Prediction
import ClusterRounds.Proofs.Lloyd.Regrouping
import ClusterRounds.Proofs.Storage
import ClusterRounds.Proofs.Arguments
import ClusterRounds.Proofs.Loading
import ClusterRounds.Proofs.Planning
import ClusterRounds.Proofs.Fitting
import ClusterRounds.Proofs.Reporting
import ClusterRounds.Proofs.Escaping
import ClusterRounds.Proofs.Numerals
import ClusterRounds.Proofs.Drawing
import ClusterRounds.Proofs.Generating
import ClusterRounds.Proofs.ExitStatus
import ClusterRounds.Proofs.Coherence
import ClusterRounds.Proofs.Takeover
import ClusterRounds.Proofs.Interruption
import ClusterRounds.Proofs.Asking
import ClusterRounds.Proofs.Comparing
import ClusterRounds.Proofs.Euclidean
import ClusterRounds.Proofs.Nearest
import ClusterRounds.Proofs.Accumulation
import ClusterRounds.Proofs.Collection
import ClusterRounds.Proofs.Partitioning
import ClusterRounds.Proofs.Walking
import ClusterRounds.Proofs.Writing
import ClusterRounds.Proofs.Rereading
import ClusterRounds.Proofs.Saving
import ClusterRounds.Proofs.Sampling
import ClusterRounds.Proofs.Doubles
import ClusterRounds.Proofs.Configuring
import ClusterRounds.Proofs.Rounding
import ClusterRounds.Proofs.Decimals
import ClusterRounds.Proofs.Spelling
import ClusterRounds.Proofs.Returning
import ClusterRounds.Proofs.Grammar
import ClusterRounds.Proofs.Documents
import ClusterRounds.Proofs.Telling
