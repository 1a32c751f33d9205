import Taskflow.Event.Basic
import Taskflow.Graph
import Taskflow.RunId
set_option autoImplicit false

/-!
# Plans

What is to be carried out: jobs, and the programs they may start. A job of a graph waits for other
jobs; a job that is handed over directly waits for nothing but a slot. The jobs of several runs may
stand in one plan, and then share its slots.

## Main definitions

* `Launcher` — what starting a command does.
* `Job`, `Plan` — the jobs of a run.
* `Plan.ofGraph`, `Plan.ofTasks` — the jobs of a graph, and tasks that are handed over directly.
-/

namespace Taskflow

/-- What starting a command does: it fails for a reason, or it gives a script that puts out lines
and ends with an exit code. There is no script of a process whose end cannot be learned: that
waiting for a process fails, after it was started, is left out. -/
abbrev Launcher := CommandSpec → FileTree → Except String (Script (Stream × String) Int)

/-- A task, the jobs that have to succeed before it asks for a slot, by their places in the plan,
and the run that its report names. A job without a gate is not part of a graph and asks at once. -/
structure Job where
  task : TaskDefinition
  gate : Option (List Nat)
  run : RunId

/-- The jobs that share the slots of an executor. -/
structure Plan where
  jobs : Array Job
  launch : Launcher

namespace Plan

/-- The place of an identifier in a list. -/
def placeOf (order : List TaskId) (id : TaskId) : Option Nat := order.findIdx? (· = id)

/-- The jobs of a graph, in its order. -/
def ofGraph (g : TaskGraph) (launch : Launcher) (run : RunId) : Plan :=
  { jobs := (g.orderedTasks.map fun t =>
      ({ task := t, gate := some (t.dependencies.filterMap (placeOf g.order)), run } : Job)).toArray
    launch }

/-- Tasks that are handed over directly, in their order. -/
def ofTasks (tasks : List TaskDefinition) (launch : Launcher) (run : RunId) : Plan :=
  { jobs := (tasks.map fun t => ({ task := t, gate := none, run } : Job)).toArray, launch }

/-- The registrations of the jobs that are part of a graph, with the places of the jobs. -/
def registrations (p : Plan) : List (TaskEvent × Nat) :=
  (p.jobs.toList.zipIdx.filter (·.1.gate.isSome)).map fun j =>
    (⟨j.1.task.id, .registered j.1.task.name⟩, j.2)

/-- The identifier of the task of a job; that of `t` if there is no such job. -/
def idAt (p : Plan) (d : Nat) (t : TaskDefinition) : TaskId :=
  match p.jobs[d]? with
  | some job => job.task.id
  | none => t.id

end Plan

end Taskflow
