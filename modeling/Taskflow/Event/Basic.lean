import Taskflow.Task.Definition
import Taskflow.Timestamp
set_option autoImplicit false

/-!
# Task events

What happens to tasks during a run. An event names the task and says what has changed for it.

## Main definitions

* `TaskChange` — the seven kinds of change.
* `TaskEvent` — a change of a task.
* `TaskEvent.toJson` — the written form.
-/

namespace Taskflow

/-- What can happen to a task. -/
inductive TaskChange where
  /-- it is part of the run -/
  | registered (name : String)
  /-- it has got a slot and begins its first attempt -/
  | started (time : Timestamp)
  /-- an attempt has failed and retry number `attempt` will follow -/
  | retrying (attempt maxAttempts : UInt32) (time : Timestamp)
  /-- it has put out a line -/
  | output (stream : Stream) (line : String)
  /-- a dependency has failed, so it will never start -/
  | blocked (dependency : TaskId)
  /-- it has come to its end -/
  | completed (time : Timestamp) (outcome : TaskOutcome)
  deriving Repr, DecidableEq, Inhabited

/-- A change of a task. -/
structure TaskEvent where
  task : TaskId
  change : TaskChange
  deriving Repr, DecidableEq, Inhabited

namespace Stream

/-- The name of a stream. -/
def name : Stream → String
  | .stdout => "stdout"
  | .stderr => "stderr"

end Stream

namespace TaskChange

/-- The kind of a change. -/
def kind : TaskChange → String
  | .registered _ => "registered"
  | .started _ => "started"
  | .retrying .. => "retrying"
  | .output stream _ => stream.name
  | .blocked _ => "blocked"
  | .completed .. => "completed"

/-- The fields of a change in the order in which they are written. -/
def fields : TaskChange → List (String × Json)
  | .registered name => [("name", .str name)]
  | .started time => [("timestamp", .str time.text)]
  | .retrying attempt maxAttempts time =>
    [("attempt", .int attempt.toNat), ("max_attempts", .int maxAttempts.toNat),
      ("timestamp", .str time.text)]
  | .output _ line => [("line", .str line)]
  | .blocked dependency => [("dependency", dependency.toJson)]
  | .completed time outcome => [("timestamp", .str time.text), ("outcome", outcome.toJson)]

end TaskChange

namespace TaskEvent

/-- As JSON: kind, task, and the fields of the change. -/
def toJson (e : TaskEvent) : Json :=
  .obj (("type", .str e.change.kind) :: ("id", e.task.toJson) :: e.change.fields)

end TaskEvent

end Taskflow
