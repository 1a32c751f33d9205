import Taskflow.Event.Basic
set_option autoImplicit false

/-!
# Emitters

Emitters put events of one task into the queue of a run. An emitter may also keep a copy of the
output lines of the current attempt in a cell; its clones and loggers share the cell.

## Main definitions

* `CapturedOutput` — the lines of an attempt, stream by stream.
* `Emitter` — a handle: a task, and the cell that it captures to, if any.
* `EventQueue` — the events that were received and the contents of all cells.
* `EventQueue.emit`, `EventQueue.output`, `EventQueue.resetCapture`, `EventQueue.captured` — what
  can be done through an emitter.
-/

namespace Taskflow

/-- The lines of an attempt on both streams. -/
structure CapturedOutput where
  stdout : Array String := #[]
  stderr : Array String := #[]
  deriving Repr, DecidableEq, Inhabited

namespace CapturedOutput

/-- Appends a line to a stream. -/
def push (c : CapturedOutput) (stream : Stream) (line : String) : CapturedOutput :=
  match stream with
  | .stdout => { c with stdout := c.stdout.push line }
  | .stderr => { c with stderr := c.stderr.push line }

/-- The lines of one stream. -/
def lines (c : CapturedOutput) : Stream → List String
  | .stdout => c.stdout.toList
  | .stderr => c.stderr.toList

end CapturedOutput

/-- A handle through which events of one task are emitted. Handles with the same cell share what
they capture. -/
structure Emitter where
  task : TaskId
  cell : Option Nat := none
  deriving Repr, DecidableEq, Inhabited

/-- The queue of a run: the events in the order of their arrival, whether anyone receives them, and
the cells of capturing emitters. -/
structure EventQueue where
  events : List TaskEvent := []
  isOpen : Bool := true
  cells : List CapturedOutput := []
  deriving Repr, DecidableEq, Inhabited

namespace EventQueue

/-- Puts an event into the queue; without a receiver it is lost. -/
def send (q : EventQueue) (e : TaskEvent) : EventQueue :=
  if q.isOpen then { q with events := q.events ++ [e] } else q

/-- The receiver goes away, and with it what it has not received. -/
def close (q : EventQueue) : EventQueue := { q with events := [], isOpen := false }

/-- Hands over all events that have arrived. -/
def receiveAll (q : EventQueue) : List TaskEvent × EventQueue := (q.events, { q with events := [] })

/-- An emitter that captures to a new, empty cell; emitters that shared the old cell keep it. -/
def withCapture (q : EventQueue) (e : Emitter) : Emitter × EventQueue :=
  ({ e with cell := some q.cells.length }, { q with cells := q.cells ++ [{}] })

/-- Changes what an emitter has captured. -/
def modifyCell (q : EventQueue) (e : Emitter) (f : CapturedOutput → CapturedOutput) : EventQueue :=
  match e.cell with
  | some i => { q with cells := q.cells.modify i f }
  | none => q

/-- Emits a change of the emitter's task. -/
def emit (q : EventQueue) (e : Emitter) (change : TaskChange) : EventQueue :=
  q.send ⟨e.task, change⟩

/-- Captures a line and emits it. -/
def output (q : EventQueue) (e : Emitter) (stream : Stream) (line : String) : EventQueue :=
  (q.modifyCell e (·.push stream line)).emit e (.output stream line)

/-- Forgets what was captured. -/
def resetCapture (q : EventQueue) (e : Emitter) : EventQueue := q.modifyCell e fun _ => {}

/-- What was captured since the last reset; nothing without a cell. -/
def captured (q : EventQueue) (e : Emitter) : CapturedOutput :=
  match e.cell with
  | some i => (q.cells[i]?).getD {}
  | none => {}

end EventQueue

end Taskflow
