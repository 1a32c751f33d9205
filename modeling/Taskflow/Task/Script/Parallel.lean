import Taskflow.Task.Script
set_option autoImplicit false

/-!
# Scripts side by side

Two scripts that go on at the same time, each with its own sleeps. At one instant the first one
goes on until it sleeps, and then the second one.

## Main definitions

* `Script.within` — what a script does in a span of time, and what is left of it.
* `Script.alongside` — two scripts at the same time.
-/

namespace Taskflow

/-- What is left of a duration after another one. -/
def Duration.minus (d e : Duration) : Duration := .ofNanos (d.nanos - e.nanos)

namespace Script

variable {ω ε : Type}

/-- What a script does while the time `d` passes; it finishes with what is left of the script. -/
def within : Script ω ε → Duration → Script ω (Script ω ε)
  | .finish e, d => .sleep d fun _ => .finish (.finish e)
  | .emit o next, d => .emit o (within next d)
  | .sleep e next, d =>
    if e.nanos < d.nanos then .sleep e fun _ => within (next ()) (d.minus e)
    else .sleep d fun _ => .finish (.sleep (e.minus d) next)
  | .trigger next, d => .trigger (within next d)
  | .note n next, d => .note n (within next d)
  | .files update next, d => .files update fun t => within (next t) d

/-- Two scripts at the same time; it finishes when both have. -/
def alongside : Script ω Unit → Script ω Unit → Script ω Unit
  | .finish _, other => other
  | .emit o next, other => .emit o (alongside next other)
  | .sleep d next, other => (other.within d).bind fun other => alongside (next ()) other
  | .trigger next, other => .trigger (alongside next other)
  | .note n next, other => .note n (alongside next other)
  | .files update next, other => .files update fun t => alongside (next t) other

end Script

end Taskflow
