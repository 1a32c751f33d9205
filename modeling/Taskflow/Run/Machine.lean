import Taskflow.LogRecord
import Taskflow.Run.Plan
import Taskflow.Run.Report
import Taskflow.Run.Slots
import Taskflow.State.Coordinator
set_option autoImplicit false

/-!
# The machine of a run

Where a run stands. The jobs of a plan wait for their dependencies, ask for a slot, make their
attempts with a rest after each failure, keep their reports and come to their end; a coordinator
folds what they emit. What a job does next is told by its phase: between two phases it does one
thing that others could notice, and no more.

## Main definitions

* `NodeOutcome`, `TaskResult` — how a job ends.
* `Phase`, `JobState`, `Machine` — where a job and a run stand.
* `Machine.emit`, `Machine.setPhase`, `Machine.releaseSlot` — small changes.
* `Machine.outcomeOf?`, `Machine.events` — views.
-/

namespace Taskflow

/-- How a job of a graph ended, as those see it that depend on it. -/
inductive NodeOutcome where
  | succeeded
  | failed
  | blocked
  | interrupted
  deriving Repr, DecidableEq, Inhabited

namespace NodeOutcome

/-- The four outcomes. -/
def all : List NodeOutcome := [.succeeded, .failed, .blocked, .interrupted]

/-- The name of an outcome. -/
def name : NodeOutcome → String
  | .succeeded => "succeeded"
  | .failed => "failed"
  | .blocked => "blocked"
  | .interrupted => "interrupted"

/-- What the outcome of a task means for its job. -/
def ofTask : TaskOutcome → NodeOutcome
  | .success _ => .succeeded
  | .failure _ _ true => .interrupted
  | .failure _ _ false => .failed

end NodeOutcome

/-- The result of a task that was handed over for execution. -/
structure TaskResult where
  task : TaskId
  outcome : TaskOutcome
  attempts : UInt32
  deriving Repr, DecidableEq, Inhabited

namespace TaskResult

/-- The result of a task that was interrupted before it had a slot. -/
def notStarted (task : TaskId) : TaskResult := ⟨task, .ofError .interrupted, 0⟩

/-- Whether the task had a slot. -/
def wasStarted (r : TaskResult) : Bool := 0 < r.attempts

end TaskResult

/-- Where a job stands. -/
inductive Phase where
  /-- it has not heard from `unseen`, and has heard from `arrived` without looking -/
  | waiting (unseen arrived : List Nat)
  /-- job `d`, on which it depends, did not succeed, and this is to be emitted -/
  | blocking (d : Nat)
  /-- it is about to ask for a slot, unless the run is interrupted -/
  | requesting
  /-- it asks for a slot -/
  | asking
  /-- it stands in the line -/
  | queued
  /-- it has been given a slot while it stood in the line -/
  | granted
  /-- it has a slot, and its start is to be emitted -/
  | starting
  /-- attempt `n` is to begin -/
  | beginning (n : UInt32)
  /-- attempt `n` goes on at time `wake` -/
  | attempting (n : UInt32) (wake : Nat) (rest : Unit → Attempt)
  /-- attempt `n` goes on now with a script -/
  | playing (n : UInt32) (script : Attempt)
  /-- attempt `n` has come to an ending -/
  | judging (n : UInt32) (ending : Ending)
  /-- attempt `n` begins at time `wake` -/
  | resting (n : UInt32) (wake : Nat)
  /-- its attempts are over, and the report is to be kept -/
  | reporting (attempts : UInt32) (outcome : TaskOutcome)
  /-- its end is to be emitted -/
  | completing (attempts : UInt32) (outcome : TaskOutcome)
  /-- its slot is to be given back -/
  | releasing (attempts : UInt32) (outcome : TaskOutcome)
  /-- those who depend on it are to be told how it ended -/
  | settling (outcome : NodeOutcome) (result : Option TaskResult)
  /-- it has ended; it has a result if it was handed over for execution -/
  | ended (outcome : NodeOutcome) (result : Option TaskResult)
  /-- its work broke down and its slot is given back, which those who depend on it cannot see yet -/
  | crashing (message : String)
  /-- its work broke down -/
  | crashed (message : String)

instance : Inhabited Phase := ⟨.requesting⟩

namespace Phase

/-- Whether a job that stands here has ended, in whatever way. -/
def hasEnded : Phase → Bool
  | .ended .. | .crashed _ => true
  | _ => false

end Phase

/-- A job during a run: its phase, when it was started, and the lines of its latest attempt. -/
structure JobState where
  phase : Phase
  startedAt : Nat := 0
  captured : CapturedOutput := {}
  deriving Inhabited

/-- An event in the queue: when it was emitted, and the job whose task it is about. -/
structure Emission where
  time : Nat
  job : Nat
  event : TaskEvent
  deriving Repr, DecidableEq, Inhabited

/-- A remark of a job in the journal. -/
structure JournalEntry where
  time : Nat
  job : Nat
  task : TaskId
  note : Note
  deriving Repr, DecidableEq, Inhabited

/-- A run: clock, interrupt, slots, jobs, everything emitted so far, the coordinator, the files, and
what was logged and noted. Lists that grow are kept latest first. -/
structure Machine where
  now : Nat := 0
  interrupted : Bool := false
  slots : Slots
  jobs : Array JobState := #[]
  emissions : List Emission := []
  coordinator : Coordinator
  files : FileTree := .initial
  journal : List JournalEntry := []
  logs : List (Nat × LogRecord) := []
  deriving Inhabited

namespace Machine

/-! ## Small changes -/

/-- The present time as a point in time. -/
def timestamp (m : Machine) : Timestamp := .ofMillis m.now

/-- Changes the state of job `i`. -/
def modifyJob (m : Machine) (i : Nat) (f : JobState → JobState) : Machine :=
  { m with jobs := m.jobs.modify i f }

/-- Moves job `i` to a phase. -/
def setPhase (m : Machine) (i : Nat) (phase : Phase) : Machine :=
  m.modifyJob i fun j => { j with phase }

/-- Emits an event about the task of job `i`. -/
def emit (m : Machine) (i : Nat) (e : TaskEvent) : Machine :=
  { m with
    emissions := ⟨m.now, i, e⟩ :: m.emissions
    coordinator := m.coordinator.send e }

/-- Writes a record to the log of job `i`. -/
def log (m : Machine) (i : Nat) (r : LogRecord) : Machine := { m with logs := (i, r) :: m.logs }

/-- Leaves a note of job `i`, whose task is `t`, in the journal. -/
def jot (m : Machine) (t : TaskDefinition) (i : Nat) (n : Note) : Machine :=
  { m with journal := ⟨m.now, i, t.id, n⟩ :: m.journal }

/-- Gives a slot back; whoever it goes to is told. -/
def releaseSlot (m : Machine) : Machine :=
  let given := { m with slots := m.slots.release.1 }
  match m.slots.release.2 with
  | some j => given.setPhase j .granted
  | none => given

/-! ## Views -/

/-- Where job `i` stands. -/
def phaseOf? (m : Machine) (i : Nat) : Option Phase := (m.jobs[i]?).map (·.phase)

/-- How job `d` ended, if it has; one that broke down has failed. -/
def outcomeOf? (m : Machine) (d : Nat) : Option NodeOutcome :=
  match m.phaseOf? d with
  | some (.ended outcome _) => some outcome
  | some (.crashed _) => some .failed
  | _ => none

/-- The result of job `i`, if it has one. -/
def resultOf? (m : Machine) (i : Nat) : Option TaskResult :=
  match m.phaseOf? i with
  | some (.ended _ result) => result
  | _ => none

/-- Whether all jobs have ended. -/
def allEnded (m : Machine) : Bool := m.jobs.all (·.phase.hasEnded)

/-- Everything emitted so far and when, latest first. -/
def history (m : Machine) : List (Nat × TaskEvent) := m.emissions.map fun e => (e.time, e.event)

/-- Everything emitted so far, in order. -/
def events (m : Machine) : List TaskEvent := m.emissions.reverse.map (·.event)

/-! ## What small changes do to the phases -/

variable (m : Machine) (i j : Nat)

/-- Where a job stands after a change of the state of one job. -/
theorem phaseOf?_modifyJob (f : JobState → JobState) :
    (m.modifyJob i f).phaseOf? j =
      if i = j then (m.jobs[j]?).map fun s => (f s).phase else m.phaseOf? j := by
  simp only [phaseOf?, modifyJob, Array.getElem?_modify]
  split <;> simp [Function.comp_def]

/-- Where a job stands after one job has gone on. -/
theorem phaseOf?_setPhase (phase : Phase) :
    (m.setPhase i phase).phaseOf? j =
      if i = j then (m.phaseOf? j).map fun _ => phase else m.phaseOf? j := by
  rw [setPhase, phaseOf?_modifyJob]
  simp [phaseOf?, Function.comp_def]

/-- Emitting moves no job. -/
@[simp] theorem phaseOf?_emit (e : TaskEvent) : (m.emit i e).phaseOf? j = m.phaseOf? j := rfl

/-- A slot that is given back moves the first in the line. -/
theorem phaseOf?_releaseSlot :
    m.releaseSlot.phaseOf? j =
      if m.slots.release.2 = some j then (m.phaseOf? j).map fun _ => .granted
      else m.phaseOf? j := by
  unfold releaseSlot
  cases m.slots.release.2 with
  | none => rfl
  | some k => simp [phaseOf?_setPhase]; rfl

end Machine

end Taskflow
