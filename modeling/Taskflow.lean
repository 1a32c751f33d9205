import Taskflow.Command.Launch
import Taskflow.Command.Spec
import Taskflow.CommandLine.Invocation
import Taskflow.CommandLine.Reply
import Taskflow.Duration
import Taskflow.Environment
import Taskflow.Event.Basic
import Taskflow.Event.Emitter
import Taskflow.Files.Path
import Taskflow.Files.Tree
import Taskflow.Graph
import Taskflow.Json.Reader
import Taskflow.Json.Value
import Taskflow.LogRecord
import Taskflow.Main
import Taskflow.OutputLines
import Taskflow.Proofs.Command.Streams
import Taskflow.Proofs.Duration
import Taskflow.Proofs.Event.Capturing
import Taskflow.Proofs.Files.Alike
import Taskflow.Proofs.Files.Saving
import Taskflow.Proofs.Graph.Canonical
import Taskflow.Proofs.Graph.Cycles
import Taskflow.Proofs.Graph.Edges
import Taskflow.Proofs.Graph.Lookups
import Taskflow.Proofs.Graph.Order
import Taskflow.Proofs.Graph.Validation
import Taskflow.Proofs.Json.Collections
import Taskflow.Proofs.Json.Reader
import Taskflow.Proofs.OutputLines
import Taskflow.Proofs.OutputLines.Sharing
import Taskflow.Proofs.RetryPolicy.Backoff
import Taskflow.Proofs.RetryPolicy.RoundTrip
import Taskflow.Proofs.Run.Agreement
import Taskflow.Proofs.Run.Alike
import Taskflow.Proofs.Run.Attempts
import Taskflow.Proofs.Run.Beside
import Taskflow.Proofs.Run.Beside.Runs
import Taskflow.Proofs.Run.Beside.Work
import Taskflow.Proofs.Run.Blame
import Taskflow.Proofs.Run.Breakdown
import Taskflow.Proofs.Run.Ceiling
import Taskflow.Proofs.Run.Checks
import Taskflow.Proofs.Run.Consistency
import Taskflow.Proofs.Run.Coordination
import Taskflow.Proofs.Run.Counters
import Taskflow.Proofs.Run.Endings
import Taskflow.Proofs.Run.ExitCode
import Taskflow.Proofs.Run.FileRuns
import Taskflow.Proofs.Run.Gate
import Taskflow.Proofs.Run.Grammar
import Taskflow.Proofs.Run.GraphPlan
import Taskflow.Proofs.Run.Holding
import Taskflow.Proofs.Run.Interruption
import Taskflow.Proofs.Run.Isolation
import Taskflow.Proofs.Run.KeptReports
import Taskflow.Proofs.Run.LastAttempt
import Taskflow.Proofs.Run.LateAttempts
import Taskflow.Proofs.Run.Lifecycle
import Taskflow.Proofs.Run.Liveness
import Taskflow.Proofs.Run.Logging
import Taskflow.Proofs.Run.Memory
import Taskflow.Proofs.Run.Moves
import Taskflow.Proofs.Run.Performing
import Taskflow.Proofs.Run.Pipes
import Taskflow.Proofs.Run.Pipes.Grammar
import Taskflow.Proofs.Run.Pipes.LogFile
import Taskflow.Proofs.Run.Polling
import Taskflow.Proofs.Run.Probe
import Taskflow.Proofs.Run.Progress
import Taskflow.Proofs.Run.Reach
import Taskflow.Proofs.Run.RetryLoop
import Taskflow.Proofs.Run.Sequential
import Taskflow.Proofs.Run.Settlement
import Taskflow.Proofs.Run.Simulation
import Taskflow.Proofs.Run.Snapshots
import Taskflow.Proofs.Run.Standing
import Taskflow.Proofs.Run.Topological
import Taskflow.Proofs.Run.Turn
import Taskflow.Proofs.Run.Uninterrupted
import Taskflow.Proofs.State.Cadence
import Taskflow.Proofs.State.ClosedForm
import Taskflow.Proofs.State.Coordinator
import Taskflow.Proofs.State.Feeding
import Taskflow.Proofs.State.Growth
import Taskflow.Proofs.State.Life
import Taskflow.Proofs.State.Outline
import Taskflow.Proofs.State.Projection
import Taskflow.Proofs.State.Publishing
import Taskflow.Proofs.State.Rendering
import Taskflow.Proofs.State.Subscription
import Taskflow.Proofs.State.Tally
import Taskflow.Proofs.State.Timeless
import Taskflow.Proofs.TaskFile
import Taskflow.Proofs.TaskFile.Checking
import Taskflow.Proofs.Text.Lines
import Taskflow.Proofs.Text.Utf8
import Taskflow.RetryPolicy
import Taskflow.Run.Interrupt
import Taskflow.Run.Journal
import Taskflow.Run.Machine
import Taskflow.Run.Pipes
import Taskflow.Run.Plan
import Taskflow.Run.Report
import Taskflow.Run.Schedule
import Taskflow.Run.Slots
import Taskflow.Run.Summary
import Taskflow.RunId
import Taskflow.Shell.Arithmetic
import Taskflow.Shell.Builtin
import Taskflow.Shell.Command
import Taskflow.Shell.Condition
import Taskflow.Shell.Evaluation
import Taskflow.Shell.Expansion
import Taskflow.Shell.Format
import Taskflow.Shell.Octets
import Taskflow.Shell.Pattern
import Taskflow.Shell.Reader
import Taskflow.Shell.Session
import Taskflow.Shell.Utility
import Taskflow.State.Basic
import Taskflow.State.Coordinator
import Taskflow.State.Feed
import Taskflow.State.Rendering
import Taskflow.State.Subscription
import Taskflow.Table
import Taskflow.Task.Computation
import Taskflow.Task.Definition
import Taskflow.Task.Error
import Taskflow.Task.Script
import Taskflow.Task.Script.Parallel
import Taskflow.TaskFile
import Taskflow.TaskId
import Taskflow.Text.Lines
import Taskflow.Text.Printable
import Taskflow.Text.Quoted
import Taskflow.Text.Utf8
import Taskflow.Timestamp
import Taskflow.Yaml.Decode
import Taskflow.Yaml.Node
import Taskflow.Yaml.Token
import Taskflow.Yaml.Token.Cursor
import Taskflow.Yaml.Token.Lexer
import Taskflow.Yaml.Token.Scalar
