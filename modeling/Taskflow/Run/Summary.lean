import Taskflow.Run.Schedule
set_option autoImplicit false

/-!
# Runs of task graphs

From a list of tasks to a summary of how they went.

## Main definitions

* `RunOptions` — limit on concurrency, publishing interval, strictness.
* `GraphResult` — how the jobs of a graph ended, and the final state.
* `RunSummary` — the counts and lists that are reported of a run.
* `RunError` — why there is no summary.
* `RunEnding` — how a run ends.
* `runTasks` — builds the graph of a list of tasks and runs it.
-/

namespace Taskflow

/-- What can be chosen for a run; the interval is in milliseconds. -/
structure RunOptions where
  concurrency : Nat := 4
  publishInterval : Nat := 50
  strict : Bool := false
  deriving Repr, DecidableEq, Inhabited

namespace RunOptions

/-- Sets the limit on concurrency; zero counts as one. -/
def withConcurrency (o : RunOptions) (limit : Nat) : RunOptions :=
  { o with concurrency := Slots.effectiveLimit limit }

end RunOptions

/-- How the jobs of a graph ended, what the handed-over tasks resulted in, and the final state. Jobs
whose work broke down have no outcome. -/
structure GraphResult where
  state : SystemState
  outcomes : List (TaskId × NodeOutcome)
  results : List (TaskId × TaskResult)
  interrupted : Bool
  deriving Repr, DecidableEq

namespace GraphResult

/-- The outcome of a job that has come to an end. -/
def outcomeOf (j : Job) (s : JobState) : Option (TaskId × NodeOutcome) :=
  match s.phase with
  | .ended outcome _ => some (j.task.id, outcome)
  | _ => none

/-- The result of a task that was handed over. -/
def resultOf (j : Job) (s : JobState) : Option (TaskId × TaskResult) :=
  match s.phase with
  | .ended _ (some result) => some (j.task.id, result)
  | _ => none

/-- The result of a run, from its machine. -/
def ofMachine (p : Plan) (m : Machine) : GraphResult :=
  let jobs := p.jobs.toList.zip m.jobs.toList
  { state := m.coordinator.state
    outcomes := jobs.filterMap fun j => outcomeOf j.1 j.2
    results := jobs.filterMap fun j => resultOf j.1 j.2
    interrupted := m.interrupted }

/-- The number of jobs with an outcome. -/
def count (r : GraphResult) (outcome : NodeOutcome) : Nat :=
  r.outcomes.countP fun o => decide (o.2 = outcome)

end GraphResult

/-- Why there is no summary of a run. -/
inductive RunError where
  | graph (e : GraphError)
  | tasksFailed (ids : List TaskId)
  deriving Repr, DecidableEq

namespace RunError

/-- The text of the error. -/
def message : RunError → String
  | .graph e => "invalid task graph: " ++ e.message
  | .tasksFailed ids => toString ids.length ++ " task(s) failed: " ++ TaskId.join ids

end RunError

/-- What is reported of a run; the duration is in milliseconds. -/
structure RunSummary where
  run : RunId
  state : SystemState
  successCount : Nat
  failureCount : Nat
  failed : List TaskId
  blocked : List TaskId
  interrupted : Bool
  duration : Nat
  deriving Repr, DecidableEq

namespace RunSummary

/-- The summary of a run. -/
def ofResult (run : RunId) (duration : Nat) (r : GraphResult) : RunSummary :=
  let failed := r.state.idsWithStatus .failed
  { run
    state := r.state
    successCount := r.state.count .succeeded
    failureCount := failed.length
    failed
    blocked := r.state.blockedIds
    interrupted := r.interrupted
    duration }

/-- Whether every task succeeded. -/
def isSuccess (s : RunSummary) : Bool := s.failureCount = 0 ∧ s.successCount = s.state.size

/-- The summary itself, or an error if any task failed. -/
def orFail (s : RunSummary) : Except RunError RunSummary :=
  if 0 < s.failureCount then .error (.tasksFailed s.failed) else .ok s

/-- As JSON. -/
def toJson (s : RunSummary) : Json :=
  .obj [("run_id", s.run.toJson), ("state", s.state.toJson),
    ("success_count", .int s.successCount), ("failure_count", .int s.failureCount),
    ("failed_task_ids", .arr (s.failed.map TaskId.toJson)),
    ("blocked_task_ids", .arr (s.blocked.map TaskId.toJson)),
    ("interrupted", .bool s.interrupted), ("duration_ms", .int s.duration)]

end RunSummary

/-- How a run of a list of tasks ends: with a summary, with an error that is reported, or by
breaking down. -/
inductive RunEnding where
  | summary (s : RunSummary)
  | error (e : RunError)
  | breakdown (message : String)
  deriving Repr, DecidableEq

namespace RunEnding

/-- The ending of a run that is strict or not: a strict one turns failed tasks into an error. -/
def ofSummary (strict : Bool) (s : RunSummary) : RunEnding :=
  match if strict then s.orFail else .ok s with
  | .ok s => .summary s
  | .error e => .error e

end RunEnding

/-- A run of a list of tasks: the machine at its end, and how it ends. -/
structure RunOutcome where
  machine : Machine
  ending : RunEnding

/-- Builds the graph of a list of tasks and runs it in a world, with as many slots as the options
allow. -/
def runTasks (tasks : List TaskDefinition) (o : RunOptions) (launch : Launcher) (run : RunId)
    (w : Watch) (world : Machine) : RunOutcome :=
  match TaskGraph.build tasks with
  | .error e => ⟨world, .error (.graph e)⟩
  | .ok g =>
    match Slots.ofLimit? o.concurrency with
    | .error message => ⟨world, .breakdown message⟩
    | .ok slots =>
      let p := Plan.ofGraph g launch run
      let m := runPlan p o.publishInterval w { world with slots }
      ⟨m, .ofSummary o.strict (.ofResult run (m.now - world.now) (.ofMachine p m))⟩

end Taskflow
