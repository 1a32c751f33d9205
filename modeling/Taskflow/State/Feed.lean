import Taskflow.State.Coordinator
set_option autoImplicit false

/-!
# Feeding a coordinator

A coordinator that is sent lists of events at given times on a clock on which work takes no time,
with a subscriber who looks whenever something may have been published.

## Main definitions

* `Delivery` — events and the time at which they are sent together.
* `Feed` — the coordinator and the subscriber.
* `Feed.run` — all deliveries, and then the end of the queue.
-/

namespace Taskflow

/-- Events that are sent together. -/
structure Delivery where
  time : Nat
  events : List TaskEvent
  deriving Repr, DecidableEq, Inhabited

/-- A coordinator and a subscriber. -/
structure Feed where
  coordinator : Coordinator
  viewer : Viewer := {}
  deriving Repr, DecidableEq, Inhabited

namespace Feed

/-- The coordinator is polled, and then the subscriber looks. -/
def poll (f : Feed) (time : Nat) : Feed :=
  let coordinator := f.coordinator.poll time
  ⟨coordinator, f.viewer.poll (.ofCoordinator coordinator)⟩

/-- Lets the clock come up to `time`: the ticks before it are served. At most one of them has
something to publish. -/
def comeTo (f : Feed) (time : Nat) : Feed :=
  let c := f.coordinator
  let f := if c.dirty ∧ c.nextTick < time then f.poll c.nextTick else f
  { f with coordinator := f.coordinator.skipTicks time }

/-- Events are sent and served; with the last of them the queue is closed. -/
def deliver (f : Feed) (d : Delivery) (isLast : Bool) : Feed :=
  let f := f.comeTo d.time
  let c := d.events.foldl .send f.coordinator
  { f with coordinator := if isLast then c.close else c }.poll d.time

/-- All deliveries, one after the other; without any the queue is closed at once. -/
def deliverAll (f : Feed) : List Delivery → Feed
  | [] => f.deliver ⟨0, []⟩ true
  | [d] => f.deliver d true
  | d :: rest => (f.deliver d false).deliverAll rest

/-- Joins deliveries of one time. -/
def joined : List Delivery → List Delivery
  | [] => []
  | d :: rest =>
    match joined rest with
    | e :: others =>
      if e.time ≤ d.time then ⟨d.time, d.events ++ e.events⟩ :: others else d :: e :: others
    | [] => [d]

/-- Feeds a new coordinator. -/
def run (interval : Nat) (script : List Delivery) : Feed :=
  deliverAll { coordinator := .start interval 0 } (joined script)

end Feed

end Taskflow
