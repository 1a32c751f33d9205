import Taskflow.RetryPolicy
import Taskflow.Task.Error
import Taskflow.Task.Script
import Taskflow.TaskId
set_option autoImplicit false

/-!
# Task definitions

The description of one unit of work: who it is, what it waits for, what it does, how often it is
tried, and where a report of it is kept.

## Main definitions

* `Ending`, `Work` — what a task does: start a command, or compute.
* `TaskDefinition` — a task, with its builders `named`, `dependsOn`, `withDependencies`,
  `withRetry` and `withLogFile`.
-/

namespace Taskflow

/-- How a computation ends: with a value, with an error, or by breaking down. -/
inductive Ending where
  | ok (result : Json)
  | fail (error : TaskError)
  | panic (message : String)
  deriving Repr, DecidableEq, Inhabited

/-- The script of one attempt of a task: it puts out lines and comes to an ending. -/
abbrev Attempt := Script (Stream × String) Ending

/-- What a task does: it starts a command, or it computes; a computation may behave differently
from attempt to attempt, counted from zero. -/
inductive Work where
  | command (spec : CommandSpec)
  | computation (behaviour : Nat → Attempt)

/-- One schedulable unit of work. No dependency is named twice. -/
structure TaskDefinition where
  id : TaskId
  name : String
  dependencies : List TaskId := []
  work : Work
  retryPolicy : Option RetryPolicy := none
  logFile : Option String := none
  dependencies_nodup : dependencies.Nodup := by simp

namespace TaskDefinition

/-- A task with nothing but its work; it is named after its identifier. -/
def ofWork (id : TaskId) (work : Work) : TaskDefinition := { id, name := id.text, work }

/-- A task that starts a command. -/
def ofCommand (id : TaskId) (spec : CommandSpec) : TaskDefinition := ofWork id (.command spec)

/-- A task that computes. -/
def ofComputation (id : TaskId) (behaviour : Nat → Attempt) : TaskDefinition :=
  ofWork id (.computation behaviour)

/-- Sets the name. -/
def named (t : TaskDefinition) (name : String) : TaskDefinition := { t with name }

/-- Appends one dependency; one that is there already stays where it is. -/
def dependsOn (t : TaskDefinition) (dependency : TaskId) : TaskDefinition :=
  if h : dependency ∈ t.dependencies then t
  else
    { t with
      dependencies := t.dependencies ++ [dependency]
      dependencies_nodup := by
        refine List.nodup_append.2 ⟨t.dependencies_nodup, by simp, fun a ha b hb => ?_⟩
        obtain rfl := List.mem_singleton.1 hb
        exact fun e => h (e ▸ ha) }

/-- Appends dependencies one by one. -/
def withDependencies (t : TaskDefinition) (dependencies : List TaskId) : TaskDefinition :=
  dependencies.foldl dependsOn t

/-- Sets the retry policy. -/
def withRetry (t : TaskDefinition) (policy : RetryPolicy) : TaskDefinition :=
  { t with retryPolicy := some policy }

/-- Sets the file that is to hold a report of the last attempt. -/
def withLogFile (t : TaskDefinition) (path : String) : TaskDefinition :=
  { t with logFile := some path }

/-- The retry policy; without one there is one attempt. -/
def effectiveRetryPolicy (t : TaskDefinition) : RetryPolicy := t.retryPolicy.getD RetryPolicy.none

/-- What the task starts, if it is a command. -/
def command? (t : TaskDefinition) : Option CommandSpec :=
  match t.work with
  | .command spec => some spec
  | .computation _ => none

/-- Whether the task starts a command. -/
def isCommand (t : TaskDefinition) : Bool := t.command?.isSome

end TaskDefinition

end Taskflow
