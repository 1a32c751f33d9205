import Taskflow.State.Basic
set_option autoImplicit false

/-!
# Subscriptions

A slot holds the latest snapshot and a count of how often it was replaced. A viewer compares the
count with the one it saw last; it may miss snapshots that were replaced before it looked, but
never the latest one. Once the publishing side is gone and nothing is unseen, the viewer shows the
last snapshot for good.

Between two steps of a viewer the slot may change: it is told that there is an unseen snapshot, and
shows whatever is in the slot when it comes to look.

## Main definitions

* `Slot` — the latest snapshot, how many there were, and whether there will be more.
* `Showing` — what a subscriber hands to its renderer.
* `Viewer` — a subscriber, where it stands in its loop and what it has shown.
* `Viewer.step`, `Viewer.poll` — one step of the loop, and all that can be made at once.
-/

namespace Taskflow

/-- The place where snapshots are published. -/
structure Slot where
  state : SystemState := {}
  version : Nat := 0
  isClosed : Bool := false
  deriving Repr, DecidableEq, Inhabited

namespace Slot

/-- A snapshot replaces the one before it. -/
def put (s : Slot) (state : SystemState) : Slot := { s with state, version := s.version + 1 }

/-- The publishing side goes away. -/
def close (s : Slot) : Slot := { s with isClosed := true }

end Slot

/-- What a subscriber hands to its renderer: a snapshot with the count under which it stood in the
slot, or the last one, for good. -/
inductive Showing where
  | frame (version : Nat) (state : SystemState)
  | final (state : SystemState)
  deriving Repr, DecidableEq

namespace Showing

/-- The snapshot that is shown while there may be more. -/
def frame? : Showing → Option SystemState
  | .frame _ state => some state
  | .final _ => none

/-- The snapshot that is shown for good. -/
def final? : Showing → Option SystemState
  | .frame .. => none
  | .final state => some state

end Showing

/-- Where a subscriber stands in its loop. -/
inductive Viewing where
  /-- it waits for an unseen snapshot, or for the end -/
  | waiting
  /-- it was told of an unseen snapshot -/
  | notified
  /-- it was told of the end -/
  | dismissed
  /-- it has shown the last snapshot for good -/
  | done
  deriving Repr, DecidableEq, Inhabited

/-- A subscriber: the count it saw last, where it stands, and what it has shown, latest first. -/
structure Viewer where
  seen : Nat := 0
  stage : Viewing := .waiting
  calls : List Showing := []
  deriving Repr, DecidableEq, Inhabited

namespace Viewer

/-- One step of the loop. A viewer that waits is told of an unseen snapshot before it is told of
the end; what it shows is what stands in the slot by then. -/
def step (v : Viewer) (s : Slot) : Viewer :=
  match v.stage with
  | .waiting =>
    if v.seen ≠ s.version then { v with seen := s.version, stage := .notified }
    else if s.isClosed then { v with stage := .dismissed }
    else v
  | .notified =>
    { seen := s.version, stage := .waiting, calls := .frame s.version s.state :: v.calls }
  | .dismissed => { v with stage := .done, calls := .final s.state :: v.calls }
  | .done => v

/-- All steps that can be made while the slot stays as it is: no more than one snapshot is unseen,
and the end takes two steps. -/
def poll (v : Viewer) (s : Slot) : Viewer := (((v.step s).step s).step s).step s

/-- The snapshots that were shown while there might be more, latest first. -/
def frames (v : Viewer) : List SystemState := v.calls.filterMap Showing.frame?

/-- The snapshot that was shown for good, if it has come to that. -/
def last (v : Viewer) : Option SystemState := v.calls.findSome? Showing.final?

end Viewer

end Taskflow
