set_option autoImplicit false

/-!
# Interrupt handles

A handle shows whether an interrupt has been triggered, and handles made from one another share
this. Once triggered, an interrupt stays so. Alarms trigger an interrupt later; whoever waits for
an interrupt sleeps until it is triggered or the wait is over. Time is counted in milliseconds.

## Main definitions

* `Interrupts` — the interrupts, the handles, and the alarms that are still to go off.
* `Interrupts.trigger`, `Interrupts.triggerAfter`, `Interrupts.wait` — what can be done.
-/

namespace Taskflow

/-- An alarm: when it goes off, and which interrupt it triggers. -/
structure Alarm where
  time : Nat
  interrupt : Nat
  deriving Repr, DecidableEq, Inhabited

/-- The interrupts, the one that each handle shows, and the alarms. -/
structure Interrupts where
  now : Nat := 0
  triggered : List Bool := [false]
  handles : List Nat := [0]
  alarms : List Alarm := []
  deriving Repr, DecidableEq, Inhabited

namespace Interrupts

/-- The interrupt that a handle shows. -/
def ofHandle (s : Interrupts) (h : Nat) : Nat := (s.handles[h]?).getD 0

/-- Whether an interrupt has been triggered. -/
def isSet (s : Interrupts) (interrupt : Nat) : Bool := (s.triggered[interrupt]?).getD false

/-- Whether the interrupt of a handle has been triggered. -/
def isTriggered (s : Interrupts) (h : Nat) : Bool := s.isSet (s.ofHandle h)

/-- What every handle shows. -/
def view (s : Interrupts) : List Bool := s.handles.map s.isSet

/-- A new interrupt with a handle of its own. -/
def create (s : Interrupts) : Interrupts :=
  { s with triggered := s.triggered ++ [false], handles := s.handles ++ [s.triggered.length] }

/-- Another handle of the interrupt that `h` shows. -/
def clone (s : Interrupts) (h : Nat) : Interrupts :=
  { s with handles := s.handles ++ [s.ofHandle h] }

/-- Triggers the interrupt of a handle. -/
def trigger (s : Interrupts) (h : Nat) : Interrupts :=
  { s with triggered := s.triggered.set (s.ofHandle h) true }

/-- Sets an alarm for the interrupt of a handle. -/
def triggerAfter (s : Interrupts) (h ms : Nat) : Interrupts :=
  { s with alarms := s.alarms ++ [⟨s.now + ms, s.ofHandle h⟩] }

/-- Alarms that go off trigger their interrupts. -/
def goOff (s : Interrupts) (due : Alarm → Bool) : Interrupts :=
  { s with
    triggered := (s.alarms.filter due).foldl (fun set a => set.set a.interrupt true) s.triggered
    alarms := s.alarms.filter fun a => ¬ due a }

/-- The least time before `deadline` at which an alarm triggers an interrupt. -/
def nextAlarm? (s : Interrupts) (interrupt deadline : Nat) : Option Nat :=
  ((s.alarms.filter fun a => a.interrupt = interrupt ∧ a.time < deadline).map (·.time)).min?

/-- Waits for the interrupt of a handle for at most `ms`, and tells whether it came. Alarms that
are due go off while others wait; one that is due when the wait is over comes too late for it. -/
def wait (s : Interrupts) (h ms : Nat) : Interrupts × Bool :=
  let interrupt := s.ofHandle h
  if s.isSet interrupt then (s, true)
  else if ms = 0 then (s, false)
  else
    let s := s.goOff fun a => a.time ≤ s.now
    if s.isSet interrupt then (s, true)
    else
      let deadline := s.now + ms
      match s.nextAlarm? interrupt deadline with
      | some time => ({ s.goOff fun a => a.time ≤ time with now := time }, true)
      | none => ({ s.goOff fun a => a.time < deadline with now := deadline }, false)

end Interrupts

end Taskflow
