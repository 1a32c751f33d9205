import Taskflow.Run.Plan
import Taskflow.Shell.Evaluation
import Taskflow.Text.Lines
set_option autoImplicit false

/-!
# Starting commands

What starting a command does. The program is looked for, and if it cannot be started the reason is
told; otherwise it is carried out, and its two streams of bytes are cut into lines.

## Main definitions

* `Launch.lines` — a script of bytes as a script of lines.
* `Launch.find` — the program of a command, or why there is none.
* `Launch.start` — starts a command.
-/

namespace Taskflow.Launch

open Shell

/-- A script of bytes as a script of lines. A line comes out as soon as its newline does; what is
left in the end counts as a line. -/
def lines (out err : LineReader) : Script Output Int → Script (Stream × String) Int
  | .finish code =>
    .emitAll (out.finish.map (Stream.stdout, ·))
      (.emitAll (err.finish.map (Stream.stderr, ·)) (.finish code))
  | .emit (pipe, bytes) next =>
    match pipe with
    | 0 =>
      let (out, found) := out.feed bytes
      .emitAll (found.map (Stream.stdout, ·)) (lines out err next)
    | 1 =>
      let (err, found) := err.feed bytes
      .emitAll (found.map (Stream.stderr, ·)) (lines out err next)
    | _ => lines out err next
  | .sleep d next => .sleep d fun u => lines out err (next u)
  | .trigger next => .trigger (lines out err next)
  | .note n next => .note n (lines out err next)
  | .files update next => .files update fun t => lines out err (next t)

/-- The directory in which a command is started. -/
def directory (spec : CommandSpec) (t : FileTree) : Except FileError (List String) :=
  match spec.workingDir with
  | none => .ok FileTree.workingDir
  | some dir => do
    match ← t.find FileTree.workingDir dir with
    | (place, .directory) => return place
    | _ => throw .notADirectory

/-- The program of a command that is started in a directory, or why it cannot be started. -/
def find (run : Command → Run Unit) (spec : CommandSpec) (t : FileTree) (dir : List String) :
    Except FileError (List String → Run Unit) :=
  let known (name : String) : Option (List String → Run Unit) :=
    if name = "env" ∨ name = "printenv" ∨ name = "kill" then
      some fun args => dispatch run (args.length + 2) false (name :: args)
    else program? run name
  if spec.program.contains '/' then
    match (programName? spec.program).bind known with
    | some program => .ok program
    | none =>
      match t.find dir spec.program with
      | .ok _ => .error .denied
      | .error e => .error e
  else
    match known spec.program with
    | some program =>
      if searches (spec.environment.get? "PATH") then .ok program else .error .notFound
    | none => .error .notFound

/-- The session in which a command is carried out. -/
def session (spec : CommandSpec) (dir : List String) : Session :=
  let given := spec.environment.vars.entries.map fun p =>
    (Octets.ofString p.1, Octets.ofString p.2)
  let vars : Table String String :=
    .ofList ([("PWD", Octets.ofString (Run.pathOf dir))] ++ given)
  { dir, vars, exported := vars.keys, name := spec.program }

/-- The exit code of a script, after the work beside it is done: one that is killed has none, which
counts as -1. -/
def exitCode (result : Except Departure Unit × Session) : Script Output Int :=
  result.2.jobs.map fun _ =>
    match result.1 with
    | .error .killed => -1
    | _ => (result.2.status : Int)

/-- Whether a text can be handed to a program. -/
def holdsNul (s : String) : Bool := s.contains '\x00'

/-- Starts a command, or tells why it cannot be started. -/
def start : Launcher := fun spec t =>
  let texts := spec.program :: spec.args ++ spec.workingDir.toList ++
    spec.environment.vars.entries.flatMap fun p => [p.1, p.2]
  if texts.any holdsNul then .error "nul byte found in provided data"
  else
    let program : Except FileError (List String × (List String → Run Unit)) := do
      let dir ← directory spec t
      return (dir, ← find (carryOut limit) spec t dir)
    match program with
    | .error e => .error e.message
    | .ok (dir, program) =>
      let work := program (spec.args.map Octets.ofString)
      .ok (lines {} {} (((ExceptT.run work).run (session spec dir)).bind exitCode))

end Taskflow.Launch
