import Taskflow.Run.Machine
set_option autoImplicit false

/-!
# Reading the journal of a run

What the notes that work leaves in the journal tell: when attempts began and ended, how often
computations were called, and how much of the counted work went on at once.

## Main definitions

* `Journal.attempts` — beginning and end of every attempt.
* `Journal.calls` — the number of calls.
* `Journal.current`, `Journal.peak` — counted work that goes on now, and at most.
-/

namespace Taskflow

/-- When an attempt began, and when it came to its own end. -/
structure AttemptSpan where
  job : Nat
  task : TaskId
  began : Nat
  ended : Option Nat
  deriving Repr, DecidableEq, Inhabited

namespace Journal

/-- Ends the latest attempt of a job. -/
def endLatest (job time : Nat) : List AttemptSpan → List AttemptSpan
  | [] => []
  | span :: rest =>
    if span.job = job then { span with ended := some time } :: rest
    else span :: endLatest job time rest

/-- The spans, latest first, of a journal that is kept latest first. -/
def spans : List JournalEntry → List AttemptSpan
  | [] => []
  | e :: earlier =>
    match e.note with
    | .began => ⟨e.job, e.task, e.time, none⟩ :: spans earlier
    | .ended => endLatest e.job e.time (spans earlier)
    | .called | .entered | .left => spans earlier

/-- The attempts in the order in which they began. -/
def attempts (journal : List JournalEntry) : List AttemptSpan := (spans journal).reverse

/-- How often a task's computation was called. -/
def calls (journal : List JournalEntry) (task : TaskId) : Nat :=
  journal.countP fun e => decide (e.note = .called ∧ e.task = task)

/-- The counted work that goes on: what has begun less what has ended. -/
def current (journal : List JournalEntry) : Nat :=
  journal.countP (fun e => decide (e.note = .entered)) -
    journal.countP (fun e => decide (e.note = .left))

/-- The most counted work that ever went on at once. -/
def peak : List JournalEntry → Nat
  | [] => 0
  | e :: earlier => max (current (e :: earlier)) (peak earlier)

end Journal

end Taskflow
