import Taskflow.Task.Definition
set_option autoImplicit false

/-!
# Computations for trials

Computations whose course is known beforehand, for trying out how tasks are run.

## Main definitions

* `Step`, `Computation.ofSteps` — computations that play lists of steps.
* `Computation.flaky` — fails a number of times, then succeeds.
* `Computation.probe` — is counted while it sleeps.
-/

namespace Taskflow

/-- A step of a computation that is played from a list. -/
inductive Step where
  | sleep (time : Duration)
  | output (stream : Stream) (line : String)
  | trigger
  | finish (ending : Ending)
  deriving Repr, DecidableEq

namespace Computation

/-- The end of an attempt is noted, unless it breaks down. -/
def close : Ending → Attempt
  | .panic message => .finish (.panic message)
  | ending => .note .ended (.finish ending)

/-- Plays a list of steps up to the first that finishes; the end of the list is a success. -/
def play : List Step → Attempt
  | [] => close (.ok .null)
  | .sleep time :: rest => .sleep time fun _ => play rest
  | .output stream line :: rest => .emit (stream, line) (play rest)
  | .trigger :: rest => .trigger (play rest)
  | .finish ending :: _ => close ending

/-- Attempt `n` plays the list with that number, or the last one. -/
def ofSteps (attempts : List (List Step)) (n : Nat) : Attempt :=
  .note .began (play ((attempts[n]?).getD (attempts.getLast?.getD [])))

/-- Fails `failures` times, counting down, and then succeeds with a result. -/
def flaky (failures : Nat) (result : Json) (n : Nat) : Attempt :=
  .note .called (.emit (.stdout, "attempt " ++ toString (n + 1)) (.finish
    (if n < failures then
      .fail (.failed ("failing, " ++ toString (failures - n - 1) ++ " more to go"))
    else .ok result)))

/-- Sleeps, and is counted from its beginning to its end. -/
def probe (time : Duration) (_ : Nat) : Attempt :=
  .note .entered (.sleep time fun _ => .note .left (.finish (.ok .null)))

end Computation

end Taskflow
