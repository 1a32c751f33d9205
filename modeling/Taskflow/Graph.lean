import Taskflow.Table
import Taskflow.Task.Definition
set_option autoImplicit false

/-!
# Task graphs

A set of tasks whose dependencies are known, distinct and free of cycles, with an order in which
every task comes after its dependencies. The order is found by taking tasks whose dependencies
have all been taken, first come, first served; of tasks that become free together the one declared
first comes first.

## Main definitions

* `GraphError` — what can be wrong with a set of tasks.
* `TaskGraph` — a checked set of tasks with its order.
* `TaskGraph.build` — checks a list of tasks: repeated identifiers, then unknown dependencies, then
  cycles.
* `TaskGraph.dependenciesOf`, `TaskGraph.dependentsOf`, `TaskGraph.roots` — the edges.
-/

namespace Taskflow

/-- What can be wrong with a set of tasks. -/
inductive GraphError where
  | unknownDependency (dependency task : TaskId)
  | circularDependency (involved : List TaskId)
  | duplicateTask (id : TaskId)
  deriving Repr, DecidableEq

namespace GraphError

/-- The text of the error. -/
def message : GraphError → String
  | .unknownDependency dependency task =>
    "unknown dependency: task '" ++ task.text ++ "' depends on non-existent task '" ++
      dependency.text ++ "'"
  | .circularDependency involved =>
    "circular dependency detected involving: " ++ TaskId.join involved
  | .duplicateTask id => "duplicate task: " ++ id.text

end GraphError

/-- The tasks in the order of their declaration, and their identifiers in an order in which
dependencies come first. -/
structure TaskGraph where
  tasks : List TaskDefinition
  order : List TaskId

namespace TaskGraph

/-! ## The three checks -/

/-- The first identifier that has been declared before. -/
def firstRepeated? (seen : List TaskId) : List TaskDefinition → Option TaskId
  | [] => none
  | t :: rest => if t.id ∈ seen then some t.id else firstRepeated? (t.id :: seen) rest

/-- The first dependency of a task that is not among the declared identifiers. -/
def firstUnknown? (declared : List TaskId) (tasks : List TaskDefinition) :
    Option (TaskId × TaskId) :=
  tasks.findSome? fun t =>
    (t.dependencies.find? fun dep => decide (dep ∉ declared)).map fun dep => (dep, t.id)

/-- The tasks that depend directly on `id`, in the order of their declaration. -/
def dependentsIn (tasks : List TaskDefinition) (id : TaskId) : List TaskId :=
  (tasks.filter fun t => decide (id ∈ t.dependencies)).map (·.id)

/-- How many dependencies of a task have not been taken yet, and the tasks that are free but not
taken. -/
structure Frontier where
  degrees : Table TaskId Nat
  queue : List TaskId

namespace Frontier

/-- One dependency of `id` has been taken: with the last one `id` becomes free. -/
def release (f : Frontier) (id : TaskId) : Frontier :=
  match f.degrees.get? id with
  | none => f
  | some degree =>
    ⟨f.degrees.insert id (degree - 1), if degree - 1 = 0 then f.queue ++ [id] else f.queue⟩

/-- Before any task is taken. -/
def start (tasks : List TaskDefinition) : Frontier :=
  ⟨.ofList (tasks.map fun t => (t.id, t.dependencies.length)),
    (tasks.filter fun t => t.dependencies.isEmpty).map (·.id)⟩

/-- Takes free tasks as long as there are any: the tasks in the order in which they are taken, and
what is left. Every task is taken at most once, so their number bounds the `fuel` that is needed. -/
def takeAll (tasks : List TaskDefinition) : Nat → Frontier → List TaskId × Frontier
  | 0, f => ([], f)
  | fuel + 1, f =>
    match f.queue with
    | [] => ([], f)
    | id :: queue =>
      let f := (dependentsIn tasks id).foldl release { f with queue }
      let (order, f) := takeAll tasks fuel f
      (id :: order, f)

end Frontier

/-- The order in which the tasks are taken, or the tasks that are never free. -/
def orderOf (tasks : List TaskDefinition) : Except (List TaskId) (List TaskId) :=
  let (order, f) := (Frontier.start tasks).takeAll tasks tasks.length
  if order.length = tasks.length then .ok order
  else
    .error ((tasks.map (·.id)).filter fun id => decide (0 < (f.degrees.get? id).getD 0))

/-- Checks a list of tasks. -/
def build (tasks : List TaskDefinition) : Except GraphError TaskGraph :=
  match firstRepeated? [] tasks with
  | some id => .error (.duplicateTask id)
  | none =>
    match firstUnknown? (tasks.map (·.id)) tasks with
    | some (dependency, task) => .error (.unknownDependency dependency task)
    | none =>
      match orderOf tasks with
      | .ok order => .ok ⟨tasks, order⟩
      | .error involved => .error (.circularDependency involved)

/-! ## Views -/

/-- The graph without tasks. -/
def empty : TaskGraph := ⟨[], []⟩

/-- The number of tasks. -/
def size (g : TaskGraph) : Nat := g.tasks.length

/-- Whether there is no task. -/
def isEmpty (g : TaskGraph) : Bool := g.tasks.isEmpty

/-- The task with an identifier. -/
def task? (g : TaskGraph) (id : TaskId) : Option TaskDefinition :=
  g.tasks.find? fun t => decide (t.id = id)

/-- The direct dependencies of a task, in its own order. -/
def dependenciesOf (g : TaskGraph) (id : TaskId) : List TaskId :=
  match g.task? id with
  | some t => t.dependencies
  | none => []

/-- The tasks that depend directly on a task, in the order of their declaration. -/
def dependentsOf (g : TaskGraph) (id : TaskId) : List TaskId := dependentsIn g.tasks id

/-- The tasks without dependencies, in the order of the graph. -/
def roots (g : TaskGraph) : List TaskId :=
  g.order.filter fun id => (g.dependenciesOf id).isEmpty

/-- The tasks in the order of the graph. -/
def orderedTasks (g : TaskGraph) : List TaskDefinition := g.order.filterMap g.task?

end TaskGraph

end Taskflow
