import Taskflow.Run.Step
set_option autoImplicit false

/-!
# Running a plan on a virtual clock

One way to resolve everything that the machine of a run leaves open. What has become ready runs in
the order in which it became ready; when nothing is ready, the clock jumps to the next timer, and
timers of one instant fire in the order in which they were set. Work takes no time.

## Main definitions

* `Thread` — what can become ready.
* `Schedule` — the machine, what is ready, and the timers.
* `Schedule.runThread`, `Schedule.advance` — what happens next.
* `Schedule.run` — goes on until the run is over.
* `runPlan` — a run of a plan in a world.
-/

namespace Taskflow

/-- What can become ready to run. -/
inductive Thread where
  /-- the coordinator -/
  | coordinator
  /-- a job -/
  | job (i : Nat)
  /-- the news that job `d` has ended, on its way to job `i` -/
  | news (i d : Nat)
  /-- the alarm that interrupts the run -/
  | alarm
  deriving Repr, DecidableEq, Inhabited

/-- What a schedule has to know besides the plan: whether there is a coordinator, when the run is
to be interrupted, and which snapshot interrupts it. -/
structure Watch where
  coordinated : Bool := true
  interruptAt : Option Nat := none
  interruptWhen : SystemState → Bool := fun _ => false

/-- The machine, the threads that are ready, jobs that wait for the files, and the timers in the
order in which they were set. -/
structure Schedule where
  machine : Machine
  ready : List Thread
  storing : List Nat := []
  timers : List (Nat × Thread) := []

namespace Schedule

/-- Makes a thread ready, unless it is. -/
def wake (s : Schedule) (t : Thread) : Schedule :=
  if t ∈ s.ready then s else { s with ready := s.ready ++ [t] }

/-- Makes threads ready. -/
def wakeAll (s : Schedule) (ts : List Thread) : Schedule := ts.foldl wake s

/-- Sets a timer. -/
def setTimer (s : Schedule) (time : Nat) (t : Thread) : Schedule :=
  { s with timers := s.timers ++ [(time, t)] }

/-- When a job sleeps, the time at which it goes on. -/
def sleepOf? (m : Machine) (i : Nat) : Option Nat :=
  match m.jobs[i]? with
  | some { phase := .attempting _ time _, .. } => some time
  | some { phase := .resting _ time, .. } => some time
  | _ => none

/-- Whether a job is about to keep its report. -/
def isReporting (m : Machine) (i : Nat) : Bool :=
  match m.jobs[i]? with
  | some { phase := .reporting .., .. } => true
  | _ => false

/-- Whether a job has been given a slot that it has not used yet. -/
def isGranted (m : Machine) (i : Nat) : Bool :=
  match m.jobs[i]? with
  | some { phase := .granted, .. } => true
  | _ => false

/-- The jobs that have not heard from job `d` yet. -/
def listeners (m : Machine) (d : Nat) : List Nat :=
  (List.range m.jobs.size).filter fun i =>
    match m.jobs[i]? with
    | some { phase := .waiting unseen _, .. } => decide (d ∈ unseen)
    | _ => false

/-- The jobs that have not ended. -/
def openJobs (m : Machine) : List Nat :=
  (List.range m.jobs.size).filter fun i => (m.outcomeOf? i).isNone

/-- Makes ready what a change of the machine has made ready: the coordinator, those in `line` who
were given a slot, and, if the run has just been interrupted, all jobs. -/
def notice (w : Watch) (before : Machine) (s : Schedule) : Schedule :=
  let m := s.machine
  let s := if w.coordinated ∧ m.coordinator.hasInput then s.wake .coordinator else s
  let s := s.wakeAll ((before.slots.line.filter (isGranted m)).map .job)
  if m.interrupted ∧ ¬ before.interrupted then s.wakeAll ((openJobs m).map .job) else s

/-- Job `i` is polled. -/
def runJob (p : Plan) (w : Watch) (i : Nat) (s : Schedule) : Schedule :=
  let before := s.machine
  let s := { s with machine := before.step p (.poll i {}) }
  let s := s.notice w before
  let m := s.machine
  let s := match m.outcomeOf? i with
    | some _ =>
      if (before.outcomeOf? i).isNone then s.wakeAll ((listeners m i).map (.news · i)) else s
    | none => s
  let s := if isReporting m i then { s with storing := s.storing ++ [i] } else s
  match sleepOf? m i with
  | some time => if sleepOf? before i = some time then s else s.setTimer time (.job i)
  | none => s

/-- The coordinator is polled; what it publishes may interrupt the run. -/
def runCoordinator (w : Watch) (s : Schedule) : Schedule :=
  let before := s.machine
  let c := before.coordinator.poll before.now
  let fresh := c.published.take (c.published.length - before.coordinator.published.length)
  let asked := fresh.any fun (e : Publication) => w.interruptWhen e.state
  let interrupted := before.interrupted || asked
  let s := { s with machine := { before with coordinator := c, interrupted } }
  let s := s.notice w before
  if c.isDone ∨ c.nextTick = before.coordinator.nextTick then s
  else s.setTimer c.nextTick .coordinator

/-- One ready thread runs. -/
def runThread (p : Plan) (w : Watch) (t : Thread) (s : Schedule) : Schedule :=
  match t with
  | .coordinator => s.runCoordinator w
  | .job i => s.runJob p w i
  | .news i d => { s with machine := s.machine.step p (.arrive i d) }.wake (.job i)
  | .alarm =>
    let before := s.machine
    { s with machine := before.step p .trigger }.notice w before

/-- Whether a timer still stands: a job that has gone on does not wait for it any more. -/
def stands (m : Machine) (timer : Nat × Thread) : Bool :=
  match timer.2 with
  | .coordinator => ¬ m.coordinator.isDone ∧ m.coordinator.nextTick = timer.1
  | .job i => sleepOf? m i = some timer.1
  | .news .. => false
  | .alarm => true

/-- The least time of a list of timers. -/
def earliest? : List (Nat × Thread) → Option Nat
  | [] => none
  | (time, _) :: rest =>
    match earliest? rest with
    | some other => some (min time other)
    | none => some time

/-- Lets ticks pass at which nothing would be published, up to the next timer of anyone else. -/
def passTicks (s : Schedule) : Schedule :=
  let others := s.timers.filter fun (timer : Nat × Thread) => timer.2 ≠ .coordinator
  match earliest? others with
  | some time =>
    let c := s.machine.coordinator.skipTicks time
    if c.nextTick = s.machine.coordinator.nextTick then s
    else
      { s with
        machine := { s.machine with coordinator := c }
        timers := others ++ [(c.nextTick, .coordinator)] }
  | none => s

/-- Moves the clock to the next timer and makes ready whoever waits for it; `none` if nobody
does. -/
def advance (p : Plan) (s : Schedule) : Option Schedule :=
  let s := { s with timers := s.timers.filter (stands s.machine) }.passTicks
  match earliest? s.timers with
  | some time =>
    let due := s.timers.filter fun (timer : Nat × Thread) => decide (timer.1 = time)
    let later := s.timers.filter fun (timer : Nat × Thread) => decide (timer.1 ≠ time)
    let machine := s.machine.step p (.advance time)
    let s : Schedule := { s with machine, timers := later }
    some (s.wakeAll (due.map fun timer => timer.2))
  | none => none

/-- Whether the run is over. -/
def isOver (w : Watch) (s : Schedule) : Bool :=
  s.machine.allEnded ∧ (w.coordinated → s.machine.coordinator.isDone)

/-- Goes on until the run is over, for at most `limit` turns. Files are stored before the clock
moves. -/
def run (p : Plan) (w : Watch) : (limit : Nat) → Schedule → Schedule
  | 0, s => s
  | limit + 1, s =>
    if s.isOver w then s
    else
      match s.ready with
      | t :: ready => run p w limit ({ s with ready }.runThread p w t)
      | [] =>
        match s.storing with
        | i :: storing => run p w limit ({ s with storing }.runJob p w i)
        | [] =>
          match s.advance p with
          | some s => run p w limit s
          | none => s

/-- The threads that are ready at the beginning: the coordinator and all jobs; the alarm is set. -/
def start (w : Watch) (m : Machine) : Schedule :=
  let threads := (if w.coordinated then [.coordinator] else []) ++
    (List.range m.jobs.size).map .job
  let s : Schedule := { machine := m, ready := threads }
  match w.interruptAt with
  | some time =>
    if m.interrupted then s
    else if time ≤ m.now then { s with ready := .alarm :: s.ready }
    else s.setTimer time .alarm
  | none => s

end Schedule

/-- The most turns that a run may take. -/
def turnLimit : Nat := 1000000000000

/-- The run of a plan in a world, up to its end. -/
def runPlan (p : Plan) (interval : Nat) (w : Watch) (world : Machine) : Machine :=
  ((Schedule.start w (Machine.start p interval world)).run p w turnLimit).machine

end Taskflow
