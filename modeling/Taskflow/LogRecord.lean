import Taskflow.TaskId
set_option autoImplicit false

/-!
# Log records

What is logged: a level, a message, and named values.

## Main definitions

* `LogLevel`, `LogRecord` — the types.
* `LogRecord.line` — message and values as one line of text.
-/

namespace Taskflow

/-- How grave a record is. -/
inductive LogLevel where
  | info
  | warn
  | error
  deriving Repr, DecidableEq, Inhabited

namespace LogLevel

/-- The name of a level. -/
def name : LogLevel → String
  | .info => "INFO"
  | .warn => "WARN"
  | .error => "ERROR"

end LogLevel

/-- A message with named values. -/
structure LogRecord where
  level : LogLevel
  message : String
  fields : List (String × Json) := []
  deriving Repr, DecidableEq, Inhabited

namespace LogRecord

/-- A record about a task. -/
def ofTask (level : LogLevel) (id : TaskId) (message : String)
    (fields : List (String × Json) := []) : LogRecord :=
  ⟨level, message, ("task", id.toJson) :: fields⟩

/-- The text of a value: a string stands as it is. -/
def fieldText : Json → String
  | .str s => s
  | v => v.compact

/-- The message and its values on one line. -/
def line (r : LogRecord) : String :=
  r.fields.foldl (fun text f => text ++ " " ++ f.1 ++ "=" ++ fieldText f.2) r.message

/-- As JSON: level, message and values as members. -/
def toJson (r : LogRecord) : Json :=
  .object (("level", .str r.level.name) :: ("message", .str r.message) :: r.fields)

end LogRecord

end Taskflow
