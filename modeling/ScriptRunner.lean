import ScriptRunner.CommandLine.Arguments
import ScriptRunner.CommandLine.Parser
import ScriptRunner.Config.Basic
import ScriptRunner.Config.Decoder
import ScriptRunner.Config.Loader
import ScriptRunner.Config.Validation
import ScriptRunner.Decimal.Rounding
import ScriptRunner.Document.Basic
import ScriptRunner.Duration.Basic
import ScriptRunner.Duration.Parser
import ScriptRunner.Exec.Command
import ScriptRunner.Exec.Live
import ScriptRunner.Exec.Outcome
import ScriptRunner.Exec.Pass
import ScriptRunner.Exec.Pool
import ScriptRunner.Exec.Rehearsal
import ScriptRunner.Exec.Runner
import ScriptRunner.Exec.Trial
import ScriptRunner.Failure
import ScriptRunner.Files.Access
import ScriptRunner.Files.Disk
import ScriptRunner.Files.Edit
import ScriptRunner.Files.Path
import ScriptRunner.Files.Tree
import ScriptRunner.Filter.Named
import ScriptRunner.Filter.Pattern
import ScriptRunner.Filter.Selection
import ScriptRunner.Glob.Basic
import ScriptRunner.Glob.Matching
import ScriptRunner.Glob.Parser
import ScriptRunner.Glob.Set
import ScriptRunner.Json.Complaint
import ScriptRunner.Json.Parser
import ScriptRunner.Json.Token
import ScriptRunner.Log.Entry
import ScriptRunner.Log.Level
import ScriptRunner.Machine.Kernel
import ScriptRunner.Machine.Program
import ScriptRunner.Machine.Signal
import ScriptRunner.Main
import ScriptRunner.Manifest.Basic
import ScriptRunner.Manifest.Complaint
import ScriptRunner.Manifest.File
import ScriptRunner.Order.Graph
import ScriptRunner.Order.Layers
import ScriptRunner.Order.Plan
import ScriptRunner.Planning.Selection
import ScriptRunner.Proofs.Config.UsableGlobs
import ScriptRunner.Proofs.Duration.Language
import ScriptRunner.Proofs.Exec.Account
import ScriptRunner.Proofs.Exec.Barrier
import ScriptRunner.Proofs.Exec.Completion
import ScriptRunner.Proofs.Exec.Driving
import ScriptRunner.Proofs.Exec.Events
import ScriptRunner.Proofs.Exec.History
import ScriptRunner.Proofs.Exec.Interruption
import ScriptRunner.Proofs.Exec.Ledger
import ScriptRunner.Proofs.Exec.PassRun
import ScriptRunner.Proofs.Exec.Places
import ScriptRunner.Proofs.Exec.PoolMap
import ScriptRunner.Proofs.Exec.PoolSlots
import ScriptRunner.Proofs.Exec.PoolSteps
import ScriptRunner.Proofs.Exec.Progress
import ScriptRunner.Proofs.Exec.Reaching
import ScriptRunner.Proofs.Exec.Refinement
import ScriptRunner.Proofs.Exec.Verdict
import ScriptRunner.Proofs.Files.Paths
import ScriptRunner.Proofs.Files.Walking
import ScriptRunner.Proofs.Filter.Choice
import ScriptRunner.Proofs.Filter.Inheritance
import ScriptRunner.Proofs.Filter.PatternLists
import ScriptRunner.Proofs.Filter.References
import ScriptRunner.Proofs.Glob.Cuts
import ScriptRunner.Proofs.Glob.Reading
import ScriptRunner.Proofs.Order.Closure
import ScriptRunner.Proofs.Order.Counters
import ScriptRunner.Proofs.Order.Cycles
import ScriptRunner.Proofs.Order.Dependents
import ScriptRunner.Proofs.Order.Edges
import ScriptRunner.Proofs.Order.Heights
import ScriptRunner.Proofs.Order.Layering
import ScriptRunner.Proofs.Order.Narrowing
import ScriptRunner.Proofs.Order.Retain
import ScriptRunner.Proofs.Order.Rounds
import ScriptRunner.Proofs.Planning.Narrowing
import ScriptRunner.Proofs.Planning.Preparation
import ScriptRunner.Proofs.Report.WrittenLines
import ScriptRunner.Proofs.Session.ExitCode
import ScriptRunner.Proofs.Session.LastPass
import ScriptRunner.Proofs.Session.Latch
import ScriptRunner.Proofs.Watch.Affected
import ScriptRunner.Proofs.Watch.Caching
import ScriptRunner.Proofs.Watch.Detours
import ScriptRunner.Proofs.Watch.Differences
import ScriptRunner.Proofs.Watch.Outside
import ScriptRunner.Proofs.Watch.Polls
import ScriptRunner.Proofs.Watch.Pruning
import ScriptRunner.Proofs.Watch.Scan
import ScriptRunner.Proofs.Watch.Territories
import ScriptRunner.Proofs.Workspace.Dependencies
import ScriptRunner.Proofs.Workspace.Loading
import ScriptRunner.Proofs.Workspace.Ownership
import ScriptRunner.Proofs.Workspace.Searching
import ScriptRunner.Remaining
import ScriptRunner.Report.Console
import ScriptRunner.Repository.Basic
import ScriptRunner.Repository.Command
import ScriptRunner.Repository.Detection
import ScriptRunner.Repository.Difference
import ScriptRunner.Repository.Ignore
import ScriptRunner.Rerun.Scope
import ScriptRunner.Session.Basic
import ScriptRunner.Session.Execution
import ScriptRunner.Session.Run
import ScriptRunner.Shell.Arithmetic
import ScriptRunner.Shell.Builtin
import ScriptRunner.Shell.Condition
import ScriptRunner.Shell.Evaluation
import ScriptRunner.Shell.Expansion
import ScriptRunner.Shell.Formatted
import ScriptRunner.Shell.Parser
import ScriptRunner.Shell.Pattern
import ScriptRunner.Shell.State
import ScriptRunner.Shell.Syntax
import ScriptRunner.SortedMap
import ScriptRunner.Text.Blank
import ScriptRunner.Text.CaseTable
import ScriptRunner.Text.Lines
import ScriptRunner.Text.Lowercase
import ScriptRunner.Text.Quoted
import ScriptRunner.Text.Ranges
import ScriptRunner.Text.Unprintable
import ScriptRunner.Text.Utf8
import ScriptRunner.Toml.Parser
import ScriptRunner.Toml.Scalar
import ScriptRunner.Toml.Table
import ScriptRunner.Tools.Files
import ScriptRunner.Tools.Streams
import ScriptRunner.Watch.Change
import ScriptRunner.Watch.Digest
import ScriptRunner.Watch.Loop
import ScriptRunner.Watch.Rehearsal
import ScriptRunner.Watch.Snapshot
import ScriptRunner.Workspace.Discovery
import ScriptRunner.Workspace.Member
