import Taskflow.Run.Step
set_option autoImplicit false

/-!
# Runs with pipes

What a command puts out goes through two pipes. Its process writes lines into them; at the other end
of each there is a reader, which goes on by itself: it captures a line for the report, then it emits
it, and then it comes to the next one. The job of the command waits: first for the end of the
process, and then for both readers, which have to come to the end of their pipes before the attempt
is judged.

When the run is interrupted, the process is killed. Once it is gone, the readers are told to stop,
and the attempt is judged at once. Nobody waits for the readers then: a reader stops at its next
yield, and until it comes there it goes on with what lies in its pipe.

## Main definitions

* `Pipe`, `Pipes` — the streams of a command on their way into the queue.
* `Piped` — a machine and the pipes of the commands of its jobs.
* `Piped.Action`, `Piped.step`, `Piped.run` — everything that can happen.

## Design

In a machine without pipes (`Machine.move`) a line is captured and emitted as soon as a command puts
it out. This is what happens if readers always come to the end of their pipes at once, so runs
without pipes are runs with pipes (`Piped.reached_of_machine`). What is said about lines and their
place in the queue is said of runs with pipes.

While a killed process comes to its end, its job plays a script that ends with an interrupt, and its
readers go on as before. How long this takes is left open, and so is what still comes out of the
process: a line that it had not ended, or lines of processes that it had started. Nobody but a
reader looks into a pipe, so it makes no difference when these lines are written. That the end of a
process cannot be learned at all does not occur.
-/

namespace Taskflow

/-! ## Pipes -/

/-- One stream of a command on its way into the queue: the lines in the pipe, and the line that its
reader has captured and not emitted yet. -/
structure Pipe where
  lines : List String := []
  held : Option String := none
  deriving Repr, DecidableEq, Inhabited

/-- The two streams of a command. -/
structure Pipes where
  stdout : Pipe := {}
  stderr : Pipe := {}
  deriving Repr, DecidableEq, Inhabited

namespace Pipes

/-- The pipe of a stream. -/
def get (q : Pipes) : Stream → Pipe
  | .stdout => q.stdout
  | .stderr => q.stderr

/-- Changes the pipe of a stream. -/
def set (q : Pipes) (stream : Stream) (x : Pipe) : Pipes :=
  match stream with
  | .stdout => { q with stdout := x }
  | .stderr => { q with stderr := x }

/-- A line is written into the pipe of a stream. -/
def write (q : Pipes) (stream : Stream) (line : String) : Pipes :=
  q.set stream { q.get stream with lines := (q.get stream).lines ++ [line] }

/-- Whether both readers have come to the end of their pipes. -/
def isDrained (q : Pipes) : Bool := q = {}

end Pipes

/-! ## Machines with pipes -/

namespace Phase

/-- The attempt whose work goes on, for a job that stands here. -/
def working? : Phase → Option UInt32
  | .attempting n .. | .playing n _ => some n
  | _ => none

end Phase

namespace Machine

/-- A line of job `i`, whose task is `t`, is captured for the report. -/
def capture (t : TaskDefinition) (i : Nat) (stream : Stream) (line : String) (m : Machine) :
    Machine :=
  m.modifyJob i fun s => remember t m.now s (.output stream line)

/-- The attempt of job `i` whose work goes on. -/
def working? (m : Machine) (i : Nat) : Option UInt32 := (m.phaseOf? i).bind Phase.working?

end Machine

/-- A machine, and the pipes of the commands of its jobs. -/
structure Piped where
  machine : Machine
  pipes : Nat → Pipes := fun _ => {}
  deriving Inhabited

namespace Piped

/-- Whether the task of job `i` starts a command. -/
def isCommand (p : Plan) (i : Nat) : Bool := (p.jobs[i]?).any (·.task.isCommand)

/-- Changes the machine and the pipes of job `i`. -/
def update (c : Piped) (machine : Machine) (i : Nat) (q : Pipes) : Piped :=
  { machine, pipes := fun k => if k = i then q else c.pipes k }

/-! ## What jobs and processes do -/

/-- Job `i` makes a move. While it plays a script that stands for a process, what the script puts
out goes into a pipe; and when the script has ended, the job waits for its readers, unless the
process was killed. -/
def move (p : Plan) (i : Nat) (choices : Choices) (c : Piped) : Piped :=
  let moved : Piped := { c with machine := c.machine.move p i choices }
  if isCommand p i then
    match c.machine.phaseOf? i with
    | some (.playing n (.emit (stream, line) next)) =>
      c.update (c.machine.setPhase i (.playing n next)) i ((c.pipes i).write stream line)
    | some (.playing _ (.finish ending)) =>
      if ending = .fail .interrupted ∧ c.machine.interrupted ∨ (c.pipes i).isDrained then moved
      else c
    | _ => moved
  else moved

/-- What a process that is killed goes on with: the lines that still come out of it. -/
def killed (left : List (Stream × String)) : Attempt :=
  .emitAll left (.finish (.fail .interrupted))

/-- The process of job `i` is killed, if the run is interrupted, and some lines still come out of
it. -/
def kill (p : Plan) (i : Nat) (left : List (Stream × String)) (c : Piped) : Piped :=
  match c.machine.working? i with
  | some n =>
    if isCommand p i ∧ c.machine.interrupted then
      { c with machine := c.machine.setPhase i (.playing n (killed left)) }
    else c
  | none => c

/-! ## What readers do -/

/-- A reader of job `i` goes on: it emits what it has captured, or captures the next line. -/
def read (p : Plan) (i : Nat) (stream : Stream) (c : Piped) : Piped :=
  match p.jobs[i]? with
  | none => c
  | some j =>
    match (c.pipes i).get stream with
    | ⟨rest, some line⟩ =>
      c.update (c.machine.emit i ⟨j.task.id, .output stream line⟩) i
        ((c.pipes i).set stream ⟨rest, none⟩)
    | ⟨line :: rest, none⟩ =>
      c.update (c.machine.capture j.task i stream line) i
        ((c.pipes i).set stream ⟨rest, some line⟩)
    | ⟨[], none⟩ => c

/-- A reader of job `i` stops, if it was told to, and leaves what lies in its pipe. A line that it
has captured it still emits. -/
def stop (i : Nat) (stream : Stream) (c : Piped) : Piped :=
  if (c.machine.working? i).isNone then
    c.update c.machine i ((c.pipes i).set stream ⟨[], ((c.pipes i).get stream).held⟩)
  else c

/-! ## Everything that can happen -/

/-- Everything that can happen. -/
inductive Action where
  /-- job `i` makes one move -/
  | move (i : Nat) (choices : Choices)
  /-- the process of job `i` is killed, and `left` still comes out of it -/
  | kill (i : Nat) (left : List (Stream × String))
  /-- a reader of job `i` goes on -/
  | read (i : Nat) (stream : Stream)
  /-- a reader of job `i` stops -/
  | stop (i : Nat) (stream : Stream)
  /-- job `i` hears from job `d` -/
  | arrive (i d : Nat)
  /-- the run is interrupted -/
  | trigger
  /-- the clock moves on -/
  | advance (time : Nat)
  /-- the coordinator serves its queue -/
  | receive
  /-- the coordinator serves its ticker -/
  | tick

/-- The queue is closed as soon as no job and no reader is left that could emit. -/
def closeIfOver (c : Piped) : Piped :=
  if (List.range c.machine.jobs.size).all fun i => (c.pipes i).isDrained then
    { c with machine := c.machine.closeIfEnded }
  else c

/-- One step. Whoever cannot do anything stays as they are. -/
def step (p : Plan) (c : Piped) : Action → Piped
  | .move i choices => (c.move p i choices).closeIfOver
  | .kill i left => c.kill p i left
  | .read i stream => (c.read p i stream).closeIfOver
  | .stop i stream => (c.stop i stream).closeIfOver
  | .arrive i d => { c with machine := c.machine.step p (.arrive i d) }
  | .trigger => { c with machine := c.machine.step p .trigger }
  | .advance time => { c with machine := c.machine.step p (.advance time) }
  | .receive => { c with machine := c.machine.step p .receive }
  | .tick => { c with machine := c.machine.step p .tick }

/-- Steps one after the other. -/
def run (p : Plan) (c : Piped) (actions : List Action) : Piped := actions.foldl (step p) c

/-- The run of a plan before its first step: all pipes are empty. -/
def start (p : Plan) (interval : Nat) (world : Machine) : Piped :=
  { machine := Machine.start p interval world }

end Piped

end Taskflow
