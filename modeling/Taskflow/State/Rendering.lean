import Taskflow.LogRecord
import Taskflow.State.Basic
set_option autoImplicit false

/-!
# Rendering snapshots as a log

A renderer is shown snapshots of a run one after the other and logs what has changed since the one
before: starts, retries, new lines, ends, and tasks that will never start. It looks at snapshots
only and remembers for every task how much of it has been logged.

## Main definitions

* `LogEntry` — what can be logged of a task; `LogEntry.record` is how it stands in the log.
* `Progress` — how much of a task has been logged.
* `Progress.entries` — what a snapshot of the task adds to the log.
* `Renderer` — the progress of all tasks; `Renderer.render` and `Renderer.renderFinal` log a
  snapshot.
-/

namespace Taskflow

/-- What can be logged of a task. -/
inductive LogEntry where
  /-- it has left its first status -/
  | started
  /-- a later retry than before has begun -/
  | retrying (attempt maxRetries : UInt32)
  /-- it has put out a line -/
  | line (stream : Stream) (text : String)
  /-- it has come to a good end, after so many milliseconds -/
  | succeeded (millis : Int)
  /-- it has come to a bad end, which may be that of a command -/
  | failed (error : Option String) (exitCode : Option Int)
  /-- a failed dependency keeps it from starting -/
  | skipped (dependency : TaskId)
  deriving Repr, DecidableEq

namespace LogEntry

/-- The record of an entry about a task. -/
def record (id : TaskId) : LogEntry → LogRecord
  | .started => .ofTask .info id "started"
  | .retrying attempt maxRetries =>
    .ofTask .warn id "retrying"
      [("attempt", .int attempt.toNat), ("max_retries", .int maxRetries.toNat)]
  | .line .stdout text => .ofTask .info id text
  | .line .stderr text => .ofTask .warn id text
  | .succeeded millis => .ofTask .info id "succeeded" [("duration_ms", .int millis)]
  | .failed error exitCode =>
    .ofTask .error id ("failed: " ++ error.getD "unknown error")
      (exitCode.map fun code => ("exit_code", .int code)).toList
  | .skipped dependency =>
    .ofTask .warn id "skipped, dependency failed" [("dependency", dependency.toJson)]

end LogEntry

namespace TaskState

/-- What is logged of the end of a task that has come to it. -/
def endEntry? (t : TaskState) : Option LogEntry :=
  match t.status with
  | .pending | .running => none
  | .succeeded => some (.succeeded (t.durationMillis?.getD 0))
  | .failed => some (.failed t.error (t.command.map (·.exitCode)))

end TaskState

/-- How much of a task has been logged. -/
structure Progress where
  status : Option TaskStatus := none
  stdout : Nat := 0
  stderr : Nat := 0
  retryAttempt : UInt32 := 0
  blocked : Bool := false
  deriving Repr, DecidableEq, Inhabited

namespace Progress

/-- The progress once a snapshot of the task has been logged. -/
def ofTask (t : TaskState) : Progress :=
  ⟨some t.status, t.stdout.size, t.stderr.size, t.retryAttempt, t.isBlocked⟩

/-- Logged as soon as the task has left its first status. -/
def startEntries (p : Progress) (t : TaskState) : List LogEntry :=
  if (p.status = none ∨ p.status = some .pending) ∧ t.status ≠ .pending then [.started] else []

/-- Logged when a later retry than before has begun. -/
def retryEntries (p : Progress) (t : TaskState) : List LogEntry :=
  if p.retryAttempt < t.retryAttempt then [.retrying t.retryAttempt t.maxRetries] else []

/-- The lines that are new on both streams. -/
def lineEntries (p : Progress) (t : TaskState) : List LogEntry :=
  (t.stdout.iterFrom p.stdout).map (.line .stdout) ++
    (t.stderr.iterFrom p.stderr).map (.line .stderr)

/-- Logged once when the task has come to its end. -/
def endEntries (p : Progress) (t : TaskState) : List LogEntry :=
  if p.status = some t.status then [] else t.endEntry?.toList

/-- Logged once when a failed dependency keeps the task from starting. -/
def skipEntries (p : Progress) (t : TaskState) : List LogEntry :=
  if p.blocked then [] else (t.blockedBy.map .skipped).toList

/-- What a snapshot of a task adds to the log. -/
def entries (p : Progress) (t : TaskState) : List LogEntry :=
  p.startEntries t ++ p.retryEntries t ++ p.lineEntries t ++ p.endEntries t ++ p.skipEntries t

end Progress

/-- The progress of every task that has been shown. -/
structure Renderer where
  seen : Table TaskId Progress := {}
  deriving Repr, DecidableEq, Inhabited

namespace Renderer

/-- A renderer that has been shown nothing. -/
def empty : Renderer := {}

/-- The progress of a task. -/
def progress (r : Renderer) (id : TaskId) : Progress := (r.seen.get? id).getD {}

/-- What is new about one task. -/
def renderTask (r : Renderer) (t : TaskState) : Renderer × List (TaskId × LogEntry) :=
  (⟨r.seen.insert t.id (.ofTask t)⟩, ((r.progress t.id).entries t).map (t.id, ·))

/-- What is new about a list of tasks. -/
def renderTasks (r : Renderer) : List TaskState → Renderer × List (TaskId × LogEntry)
  | [] => (r, [])
  | t :: rest =>
    let (r, entries) := r.renderTask t
    let (r, more) := renderTasks r rest
    (r, entries ++ more)

/-- What is new in a snapshot, task by task in ascending order. -/
def renderEntries (r : Renderer) (s : SystemState) : Renderer × List (TaskId × LogEntry) :=
  r.renderTasks s.sorted

/-- Logs what is new in a snapshot. -/
def render (r : Renderer) (s : SystemState) : Renderer × List LogRecord :=
  let (r, entries) := r.renderEntries s
  (r, entries.map fun e => e.2.record e.1)

/-- Logs what is new in the last snapshot, and how many tasks have come to which end. -/
def renderFinal (r : Renderer) (s : SystemState) : Renderer × List LogRecord :=
  let (r, records) := r.render s
  (r, records ++ [⟨.info, "all tasks settled",
    [("succeeded", .int (s.count .succeeded)), ("failed", .int (s.count .failed)),
      ("pending", .int (s.count .pending))]⟩])

/-- The numbers of lines of a task that have been logged, stream by stream. -/
def renderedLines (r : Renderer) (id : TaskId) : Nat × Nat :=
  let p := r.progress id
  (p.stdout, p.stderr)

end Renderer

end Taskflow
