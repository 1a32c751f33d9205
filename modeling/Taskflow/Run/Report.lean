import Taskflow.Event.Emitter
import Taskflow.RunId
set_option autoImplicit false

/-!
# Reports of tasks

The text that is kept in the log file of a task: a header, and the lines of its last attempt,
stream by stream.

## Main definitions

* `Report` — what is told about a task.
* `Report.text` — its text.
-/

namespace Taskflow

/-- What is told about a task that has ended; times are in milliseconds. -/
structure Report where
  task : TaskId
  outcome : TaskOutcome
  duration : Nat
  startedAt : Timestamp
  run : RunId
  output : CapturedOutput
  deriving Repr, DecidableEq

namespace Report

/-- The word for an outcome. -/
def statusText (o : TaskOutcome) : String := if o.isSuccess then "succeeded" else "failed"

/-- Seconds in three decimal places. -/
def secondsText (millis : Nat) : String :=
  toString (millis / 1000) ++ "." ++ Duration.padded 3 (millis % 1000) ++ "s"

/-- The lines of the header. -/
def header (r : Report) : List String :=
  ["# Task: " ++ r.task.text, "# Status: " ++ statusText r.outcome,
    "# Duration: " ++ secondsText r.duration, "# Started: " ++ r.startedAt.offsetText,
    "# Run: " ++ r.run.hyphenated] ++
  match r.outcome with
  | .success _ => []
  | .failure error _ _ => ["# Error: " ++ error]

/-- The lines of a stream under their heading. -/
def streamSection (heading : String) (lines : List String) : List String :=
  ["", "--- " ++ heading ++ " ---"] ++ lines

/-- All lines of the report. -/
def lines (r : Report) : List String :=
  r.header ++ streamSection "stdout" (r.output.lines .stdout) ++
    streamSection "stderr" (r.output.lines .stderr)

/-- The text of the report: every line ends with a newline. -/
def text (r : Report) : String := String.join (r.lines.map (· ++ "\n"))

end Report

end Taskflow
