import Taskflow.Event.Basic
import Taskflow.Files.Path
import Taskflow.OutputLines
import Taskflow.Table
set_option autoImplicit false

/-!
# The state of a run

The state of all tasks, derived from nothing but events.

## Main definitions

* `TaskStatus`, `TaskState` — what is known about one task.
* `TaskState.apply` — what a change does to it.
* `SystemState` — the states of all tasks of a run.
* `SystemState.apply`, `SystemState.fold` — what an event and a list of events do.
* `SystemState.count`, `SystemState.idsWithStatus`, `SystemState.blockedIds`,
  `SystemState.isSettled` — views.

## Main results

* `SystemState.get?_apply` — an event changes the state of its own task only.
-/

namespace Taskflow

/-- How far a task has come. A task that waits before a retry is running. -/
inductive TaskStatus where
  | pending
  | running
  | succeeded
  | failed
  deriving Repr, DecidableEq, Inhabited

namespace TaskStatus

/-- The four statuses. -/
def all : List TaskStatus := [.pending, .running, .succeeded, .failed]

/-- Whether the task has come to its end. -/
def isTerminal : TaskStatus → Bool
  | .succeeded | .failed => true
  | .pending | .running => false

/-- The name of a status. -/
def name : TaskStatus → String
  | .pending => "pending"
  | .running => "running"
  | .succeeded => "succeeded"
  | .failed => "failed"

end TaskStatus

/-- What is known about one task. -/
structure TaskState where
  id : TaskId
  name : String
  status : TaskStatus := .pending
  stdout : OutputLines := {}
  stderr : OutputLines := {}
  startedAt : Option Timestamp := none
  completedAt : Option Timestamp := none
  error : Option String := none
  command : Option CommandFailure := none
  retryAttempt : UInt32 := 0
  maxRetries : UInt32 := 0
  blockedBy : Option TaskId := none
  result : Option Json := none
  deriving Repr, DecidableEq, Inhabited

namespace TaskState

/-- The state right after registration. -/
def fresh (id : TaskId) (name : String) : TaskState := { id, name }

/-- The lines of one stream. -/
def lines (s : TaskState) : Stream → OutputLines
  | .stdout => s.stdout
  | .stderr => s.stderr

/-- The milliseconds between start and end, toward zero. -/
def durationMillis? (s : TaskState) : Option Int := do
  some ((← s.completedAt).millisSince (← s.startedAt))

/-- Whether a failed dependency keeps the task from starting. -/
def isBlocked (s : TaskState) : Bool := s.blockedBy.isSome

/-- What the end of the task does. -/
def complete (s : TaskState) (time : Timestamp) : TaskOutcome → TaskState
  | .success result =>
    { s with completedAt := some time, status := .succeeded, result := some result }
  | .failure error command _ =>
    { s with completedAt := some time, status := .failed, error := some error, command }

/-- What a change does to the state of a task that is there; registration starts afresh. -/
def apply (s : TaskState) : TaskChange → TaskState
  | .registered name => fresh s.id name
  | .started time => { s with status := .running, startedAt := some time }
  | .retrying attempt maxAttempts _ =>
    { s with
      status := .running, retryAttempt := attempt,
      maxRetries := if maxAttempts = 0 then 0 else maxAttempts - 1 }
  | .output .stdout line => { s with stdout := s.stdout.push line }
  | .output .stderr line => { s with stderr := s.stderr.push line }
  | .blocked dependency => { s with blockedBy := some (s.blockedBy.getD dependency) }
  | .completed time outcome => s.complete time outcome

/-- Equality of what is known about commands. -/
def sameCommand : Option CommandFailure → Option CommandFailure → Bool
  | some f, some g => f.sameAs g
  | none, none => true
  | _, _ => false

/-- Equality; lines are compared as lists and paths as paths. -/
def sameAs (s t : TaskState) : Bool :=
  s.id = t.id ∧ s.name = t.name ∧ s.status = t.status ∧ s.stdout.sameAs t.stdout ∧
    s.stderr.sameAs t.stderr ∧ s.startedAt = t.startedAt ∧ s.completedAt = t.completedAt ∧
    s.error = t.error ∧ sameCommand s.command t.command ∧ s.retryAttempt = t.retryAttempt ∧
    s.maxRetries = t.maxRetries ∧ s.blockedBy = t.blockedBy ∧ s.result = t.result

/-- As JSON. -/
def toJson (s : TaskState) : Json :=
  .obj [("id", s.id.toJson), ("name", .str s.name), ("status", .str s.status.name),
    ("stdout", s.stdout.toJson), ("stderr", s.stderr.toJson),
    ("started_at", .ofOption (fun t => .str t.text) s.startedAt),
    ("completed_at", .ofOption (fun t => .str t.text) s.completedAt),
    ("error", .ofOption .str s.error), ("command_info", .ofOption CommandFailure.toJson s.command),
    ("retry_attempt", .int s.retryAttempt.toNat), ("max_retries", .int s.maxRetries.toNat),
    ("blocked_by", .ofOption TaskId.toJson s.blockedBy),
    ("result", .ofOption (fun v => v) s.result)]

end TaskState

/-- The states of all tasks of a run. -/
structure SystemState where
  tasks : Table TaskId TaskState := {}
  deriving Repr, DecidableEq, Inhabited

namespace SystemState

/-- No tasks. -/
def empty : SystemState := {}

/-- The state of a task. -/
def get? (s : SystemState) (id : TaskId) : Option TaskState := s.tasks.get? id

/-- What an event does: registration adds the task, and events of unknown tasks do nothing. -/
def apply (s : SystemState) (e : TaskEvent) : SystemState :=
  match e.change with
  | .registered name => ⟨s.tasks.insert e.task (.fresh e.task name)⟩
  | change => ⟨s.tasks.modify e.task (·.apply change)⟩

/-- What a list of events does, from left to right. -/
def fold (s : SystemState) (events : List TaskEvent) : SystemState := events.foldl apply s

/-- The number of tasks. -/
def size (s : SystemState) : Nat := s.tasks.size

/-- Whether there is no task. -/
def isEmpty (s : SystemState) : Bool := s.tasks.entries.isEmpty

/-- The number of tasks with a status. -/
def count (s : SystemState) (status : TaskStatus) : Nat :=
  s.tasks.values.countP fun t => decide (t.status = status)

/-- The tasks with a status, in ascending order. -/
def idsWithStatus (s : SystemState) (status : TaskStatus) : List TaskId :=
  TaskId.sort ((s.tasks.values.filter fun t => decide (t.status = status)).map (·.id))

/-- The tasks that a failed dependency keeps from starting, in ascending order. -/
def blockedIds (s : SystemState) : List TaskId :=
  TaskId.sort ((s.tasks.values.filter (·.isBlocked)).map (·.id))

/-- Whether every task has come to its end. -/
def isSettled (s : SystemState) : Bool := s.tasks.values.all (·.status.isTerminal)

/-- The states of all tasks in ascending order of their identifiers. -/
def sorted (s : SystemState) : List TaskState :=
  s.tasks.values.mergeSort fun a b => a.id.le b.id

/-- Equality as maps. -/
def sameAs (s t : SystemState) : Bool :=
  s.size = t.size ∧ s.tasks.entries.all fun p =>
    match t.tasks.get? p.1 with
    | some task => p.2.sameAs task
    | none => false

/-- As JSON, an object with the tasks as members. -/
def toJson (s : SystemState) : Json :=
  .obj (s.tasks.entries.map fun p => (p.1.text, p.2.toJson))

/-- An event changes what is known of its own task, and nothing else. -/
theorem get?_apply (s : SystemState) (e : TaskEvent) (id : TaskId) :
    (s.apply e).get? id =
      if e.task = id then
        match e.change with
        | .registered name => some (.fresh id name)
        | change => (s.get? id).map (·.apply change)
      else s.get? id := by
  obtain ⟨task, change⟩ := e
  by_cases h : task = id
  · subst h
    cases change <;> simp [apply, get?, Table.get?_modify]
  · cases change <;> simp [apply, get?, Table.get?_modify, h]

/-- Folding begins with the first event. -/
theorem fold_cons (s : SystemState) (e : TaskEvent) (events : List TaskEvent) :
    s.fold (e :: events) = (s.apply e).fold events := rfl

/-- Folding goes on where it has stopped. -/
theorem fold_append (s : SystemState) (events more : List TaskEvent) :
    s.fold (events ++ more) = (s.fold events).fold more := List.foldl_append

end SystemState

end Taskflow
