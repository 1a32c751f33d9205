import Taskflow.Command.Spec
set_option autoImplicit false

/-!
# How an attempt ends

Why the work of a task failed, and the outcome that is reported for the task.

## Main definitions

* `TaskError` — the causes of a failure; `TaskError.message` is their text.
* `TaskOutcome` — success with a value, or failure with what is known about it.
* `TaskOutcome.ofError` — the outcome that reports an error.
-/

namespace Taskflow

/-- Why the work of a task failed. -/
inductive TaskError where
  | failed (message : String)
  | commandFailed (failure : CommandFailure)
  | notSpawned (command reason : String)
  | io (reason : String)
  | interrupted
  deriving Repr, DecidableEq, Inhabited

namespace TaskError

/-- The text of the error. -/
def message : TaskError → String
  | .failed message => "execution failed: " ++ message
  | .commandFailed failure => failure.message
  | .notSpawned command reason => "failed to spawn \x60" ++ command ++ "\x60: " ++ reason
  | .io reason => "io error: " ++ reason
  | .interrupted => "interrupted"

/-- What is known about a command that ended badly. -/
def commandFailure? : TaskError → Option CommandFailure
  | .commandFailed failure => some failure
  | _ => none

/-- Whether a command ended with an exit code other than zero. -/
def isCommandFailure : TaskError → Bool
  | .commandFailed _ => true
  | _ => false

/-- Whether the run was interrupted, rather than the work failing by itself. -/
def isInterrupted : TaskError → Bool
  | .interrupted => true
  | _ => false

end TaskError

/-- What is reported for a task that has ended. -/
inductive TaskOutcome where
  | success (result : Json)
  | failure (error : String) (command : Option CommandFailure) (interrupted : Bool)
  deriving Repr, DecidableEq, Inhabited

namespace TaskOutcome

/-- The outcome that reports an error. -/
def ofError (e : TaskError) : TaskOutcome := .failure e.message e.commandFailure? e.isInterrupted

/-- Whether the task succeeded. -/
def isSuccess : TaskOutcome → Bool
  | .success _ => true
  | .failure .. => false

/-- As JSON. -/
def toJson : TaskOutcome → Json
  | .success result => .obj [("kind", .str "success"), ("result", result)]
  | .failure error command interrupted =>
    .obj [("kind", .str "failure"), ("error", .str error),
      ("command", .ofOption CommandFailure.toJson command), ("interrupted", .bool interrupted)]

end TaskOutcome

end Taskflow
