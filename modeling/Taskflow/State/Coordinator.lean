import Taskflow.State.Subscription
set_option autoImplicit false

/-!
# The coordinator of a run

The coordinator takes events from a queue, folds them into its state, and now and then publishes a
snapshot. It serves two sources: the queue, from which it takes up to 1024 events at once, and a
ticker. What has changed is published when the ticker ticks, or after a batch if the last
publication lies a whole interval back, so that a queue that never runs dry cannot hold it up. When
the queue is closed and empty, a last snapshot is published and the coordinator is done. Every
snapshot goes to a callback and into a slot. Time is counted in milliseconds.

## Main definitions

* `Coordinator` — queue, state, ticker, slot and everything published so far.
* `Coordinator.receive`, `Coordinator.tick` — the two sources are served.
* `Coordinator.poll` — both are served until neither has anything to offer.
* `Slot.ofCoordinator` — the slot of a coordinator that owns it.
-/

namespace Taskflow

/-- A snapshot and when it was published. -/
structure Publication where
  time : Nat
  state : SystemState
  deriving Repr, DecidableEq, Inhabited

/-- The queue, the state folded from it, the ticker, what the callback was told, latest first, and
the slot. -/
structure Coordinator where
  interval : Nat
  pending : Array TaskEvent := #[]
  isClosed : Bool := false
  state : SystemState := {}
  dirty : Bool := false
  lastPublished : Nat
  nextTick : Nat
  published : List Publication := []
  slot : Slot := {}
  isDone : Bool := false
  deriving Repr, DecidableEq, Inhabited

namespace Coordinator

/-- The most events that are taken at once. -/
def batchSize : Nat := 1024

/-- How late a tick may be, in milliseconds, without moving the ticks after it. -/
def tickTolerance : Nat := 5

/-- A coordinator that starts at time `now` and publishes into `slot`. The interval is at least one
millisecond, and the first tick is due at once. -/
def start (interval now : Nat) (slot : Slot := {}) : Coordinator :=
  { interval := max interval 1, lastPublished := now, nextTick := now, slot }

/-- An event arrives. -/
def send (c : Coordinator) (e : TaskEvent) : Coordinator := { c with pending := c.pending.push e }

/-- No more events will arrive. -/
def close (c : Coordinator) : Coordinator := { c with isClosed := true }

/-- Publishes a snapshot: the callback is told, and then the slot is filled. -/
def publish (c : Coordinator) (now : Nat) : Coordinator :=
  { c with
    published := ⟨now, c.state⟩ :: c.published
    slot := c.slot.put c.state
    dirty := false
    lastPublished := now }

/-- Takes a batch of events. -/
def takeBatch (c : Coordinator) : Coordinator :=
  { c with
    state := c.state.fold (c.pending.toList.take batchSize)
    pending := c.pending.extract batchSize c.pending.size
    dirty := true }

/-- The queue is served: a batch is taken, and published if the last publication lies an interval
back; the end of the queue brings the last publication. -/
def receive (c : Coordinator) (now : Nat) : Coordinator :=
  if c.isDone then c
  else if c.pending.isEmpty then
    if c.isClosed then { c.publish now with isDone := true } else c
  else
    let c := c.takeBatch
    if c.lastPublished + c.interval ≤ now then
      { c.publish now with nextTick := now + c.interval }
    else c

/-- The ticker is served if it is due: what has changed is published. A tick that comes too late
moves those after it. -/
def tick (c : Coordinator) (now : Nat) : Coordinator :=
  if c.isDone ∨ now < c.nextTick then c
  else
    let due := if c.nextTick + tickTolerance < now then now else c.nextTick
    let c := { c with nextTick := due + c.interval }
    if c.dirty then c.publish now else c

/-- Whether the queue has something to offer: events, or its end. -/
def hasInput (c : Coordinator) : Bool := ¬ c.isDone ∧ (¬ c.pending.isEmpty ∨ c.isClosed)

/-- Serves both sources, the queue first, until neither has anything to offer; every round but the
last takes an event, a due tick or the end of the queue, which bounds the `fuel` that is needed. -/
def pollLoop (now : Nat) : Nat → Coordinator → Coordinator
  | 0, c => c
  | fuel + 1, c =>
    if c.hasInput then pollLoop now fuel (c.receive now)
    else if ¬ c.isDone ∧ c.nextTick ≤ now then pollLoop now fuel (c.tick now)
    else c

/-- Serves both sources until neither has anything to offer. -/
def poll (c : Coordinator) (now : Nat) : Coordinator :=
  c.pollLoop now (c.pending.size + (now - c.nextTick) + 3)

/-- Leaves out the ticks before `time` at which nothing would be published. -/
def skipTicks (c : Coordinator) (time : Nat) : Coordinator :=
  if c.dirty ∨ time ≤ c.nextTick then c
  else
    let ticks := (time - c.nextTick + c.interval - 1) / c.interval
    { c with nextTick := c.nextTick + ticks * c.interval }

end Coordinator

/-- The slot of a coordinator that is its only publisher: with the coordinator it goes away. -/
def Slot.ofCoordinator (c : Coordinator) : Slot := if c.isDone then c.slot.close else c.slot

end Taskflow
