import Taskflow.Duration
import Taskflow.Files.Tree
set_option autoImplicit false

/-!
# Scripts of work

What a piece of work does, step by step: it puts something out, sleeps, reads and changes files,
asks for the run to be interrupted, and in the end finishes. What comes after a sleep or a look at
the files hangs on them, so a script is a tree of which a run walks down one path.

## Main definitions

* `Script` — the type, for any kind of output and any kind of ending.
* `Script.map` — another ending.
* `Script.Follows` — one step of a script, which is well-founded.
* `Note` — remarks that a script leaves in the journal of its run.
-/

namespace Taskflow

/-- The two streams of lines of a task. -/
inductive Stream where
  | stdout
  | stderr
  deriving Repr, DecidableEq, Inhabited

/-- Remarks about work, for those who watch a run. -/
inductive Note where
  /-- an attempt begins -/
  | began
  /-- an attempt has come to its own end -/
  | ended
  /-- a computation is called -/
  | called
  /-- work that is counted begins -/
  | entered
  /-- work that is counted ends -/
  | left
  deriving Repr, DecidableEq, Inhabited

/-- A piece of work that puts out values of `ω` and ends with a value of `ε`. -/
inductive Script (ω ε : Type) where
  | finish (ending : ε)
  | emit (output : ω) (next : Script ω ε)
  | sleep (time : Duration) (next : Unit → Script ω ε)
  | trigger (next : Script ω ε)
  | note (n : Note) (next : Script ω ε)
  | files (update : FileTree → FileTree) (next : FileTree → Script ω ε)

namespace Script

variable {ω ε ζ : Type}

instance [Inhabited ε] : Inhabited (Script ω ε) := ⟨.finish default⟩

/-- The script with another ending. -/
def map (f : ε → ζ) : Script ω ε → Script ω ζ
  | .finish e => .finish (f e)
  | .emit o next => .emit o (map f next)
  | .sleep d next => .sleep d fun u => map f (next u)
  | .trigger next => .trigger (map f next)
  | .note n next => .note n (map f next)
  | .files update next => .files update fun t => map f (next t)

/-- A script that goes on where the first one finishes. -/
def bind (f : ε → Script ω ζ) : Script ω ε → Script ω ζ
  | .finish e => f e
  | .emit o next => .emit o (bind f next)
  | .sleep d next => .sleep d fun u => bind f (next u)
  | .trigger next => .trigger (bind f next)
  | .note n next => .note n (bind f next)
  | .files update next => .files update fun t => bind f (next t)

instance : Monad (Script ω) where
  pure := .finish
  bind s f := s.bind f

/-- The scripts that may follow one step of a script. -/
inductive Follows : Script ω ε → Script ω ε → Prop where
  | emit (o : ω) (next : Script ω ε) : Follows next (.emit o next)
  | sleep (d : Duration) (next : Unit → Script ω ε) (u : Unit) : Follows (next u) (.sleep d next)
  | trigger (next : Script ω ε) : Follows next (.trigger next)
  | note (n : Note) (next : Script ω ε) : Follows next (.note n next)
  | files (update : FileTree → FileTree) (next : FileTree → Script ω ε) (t : FileTree) :
    Follows (next t) (.files update next)

/-- Every path through a script comes to an end. -/
theorem follows_wf : WellFounded (Follows (ω := ω) (ε := ε)) := by
  refine ⟨fun s => ?_⟩
  induction s with
  | finish e => exact ⟨_, fun _ h => nomatch h⟩
  | emit o next ih => exact ⟨_, fun _ h => by cases h; exact ih⟩
  | sleep d next ih => exact ⟨_, fun _ h => by cases h; exact ih _⟩
  | trigger next ih => exact ⟨_, fun _ h => by cases h; exact ih⟩
  | note n next ih => exact ⟨_, fun _ h => by cases h; exact ih⟩
  | files update next ih => exact ⟨_, fun _ h => by cases h; exact ih _⟩

instance : WellFoundedRelation (Script ω ε) := ⟨Follows, follows_wf⟩

/-- A script that puts out a list of values first. -/
def emitAll (outputs : List ω) (next : Script ω ε) : Script ω ε :=
  outputs.foldr .emit next

end Script

end Taskflow
