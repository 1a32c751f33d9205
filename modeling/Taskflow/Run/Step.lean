import Taskflow.Run.Poll
set_option autoImplicit false

/-!
# Steps of a run

Everything that can happen, one step at a time. Which job moves next, whether a clock moves on,
whether the run is interrupted: the machine decides none of this. A step of a job is one move, or a
whole poll, which is many moves with nothing between them.

## Main definitions

* `Action`, `Machine.step`, `Machine.run` — everything that can happen.
* `Machine.start` — the run of a plan before its first step.
-/

namespace Taskflow

/-- Everything that can happen. -/
inductive Action where
  /-- job `i` makes one move -/
  | move (i : Nat) (choices : Choices)
  /-- job `i` goes on as far as it can -/
  | poll (i : Nat) (choices : Choices)
  /-- job `i` hears from job `d` -/
  | arrive (i d : Nat)
  /-- the run is interrupted -/
  | trigger
  /-- the clock moves on -/
  | advance (time : Nat)
  /-- the coordinator serves its queue -/
  | receive
  /-- the coordinator serves its ticker -/
  | tick

namespace Machine

/-- Job `i` hears from job `d`, which has ended. -/
def arrive (i d : Nat) (m : Machine) : Machine :=
  match m.phaseOf? i, m.outcomeOf? d with
  | some (.waiting unseen arrived), some _ =>
    if d ∈ unseen then m.setPhase i (.waiting (unseen.erase d) (arrived ++ [d])) else m
  | _, _ => m

/-- The queue is closed as soon as no job is left that could emit. -/
def closeIfEnded (m : Machine) : Machine :=
  if m.allEnded then { m with coordinator := m.coordinator.close } else m

/-- One step. Jobs that cannot do anything stay as they are, and the clock does not go back. -/
def step (p : Plan) (m : Machine) : Action → Machine
  | .move i choices => (m.move p i choices).closeIfEnded
  | .poll i choices => (m.poll p i choices).closeIfEnded
  | .arrive i d => m.arrive i d
  | .trigger => { m with interrupted := true }
  | .advance time => { m with now := max m.now time }
  | .receive => { m with coordinator := m.coordinator.receive m.now }
  | .tick => { m with coordinator := m.coordinator.tick m.now }

/-- Steps one after the other. -/
def run (p : Plan) (m : Machine) (actions : List Action) : Machine := actions.foldl (step p) m

/-- The phase in which a job begins. -/
def firstPhase (j : Job) : Phase :=
  match j.gate with
  | some dependencies => .waiting dependencies []
  | none => .requesting

/-- Emits a list of events about the tasks of jobs. -/
def emitAll (m : Machine) (events : List (TaskEvent × Nat)) : Machine :=
  events.foldl (fun m e => m.emit e.2 e.1) m

/-- The snapshot in the slot at the beginning of a run: all jobs of the graph are registered. -/
def registered (p : Plan) : SystemState := SystemState.empty.fold (p.registrations.map (·.1))

/-- The jobs of a plan before their first moves, in a world whose clock, interrupt, slots, files,
journal and log are those of `world`. Whoever looks at the slot does not see the state of a run
before this one. -/
def ready (p : Plan) (interval : Nat) (world : Machine) : Machine :=
  { world with
    jobs := p.jobs.map fun j => { phase := firstPhase j }
    emissions := []
    coordinator := .start interval world.now (world.coordinator.slot.put (registered p)) }

/-- The run of a plan before its first step. The registrations of a graph are in the queue
already. -/
def start (p : Plan) (interval : Nat) (world : Machine) : Machine :=
  ((ready p interval world).emitAll p.registrations).closeIfEnded

/-- A world at time zero in which nothing has happened. -/
def world (slots : Slots) : Machine := { slots, coordinator := .start 0 0 }

end Machine

end Taskflow
