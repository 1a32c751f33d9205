import Taskflow.Shell.Command
import Taskflow.Shell.Octets
import Taskflow.Table
import Taskflow.Task.Script.Parallel
set_option autoImplicit false

/-!
# Sessions of a shell

What a shell knows while it carries out a script, and the steps it can take: it writes, changes
files, sleeps, and starts work that goes on beside it. All texts are texts of bytes.

## Main definitions

* `Shell.Session` — variables, directory, input, where output goes, and work beside the script.
* `Shell.Departure` — ways to leave a command before its end.
* `Shell.Run` — what carries out a part of a script.
* `Shell.Run.write`, `Shell.Run.pause`, `Shell.Run.beside`, `Shell.Run.capture` — the steps.
-/

namespace Taskflow.Shell

/-- Bytes on their way to a pipe; the first two pipes are those of the whole script. -/
abbrev Output := Nat × List UInt8

/-- Where a number that is written to leads. -/
inductive Sink where
  | pipe (number : Nat)
  | file (place : List String)
  | closed
  deriving Repr, DecidableEq, Inhabited

/-- What a shell knows. `jobs` is the work that goes on beside the script, `onExit` is what is to be
done at its end, and `tested` is set where a status decides what comes next. -/
structure Session where
  dir : List String := FileTree.workingDir
  name : String := "sh"
  params : List String := []
  vars : Table String String := {}
  exported : List String := []
  functions : Table String Command := {}
  input : List Char := []
  sinks : Table Nat Sink := .ofList [(1, .pipe 0), (2, .pipe 1)]
  pipes : Nat := 2
  status : Nat := 0
  line : Nat := 1
  jobs : Script Output Unit := .finish ()
  onExit : Option String := none
  stopOnFailure : Bool := false
  refuseUnset : Bool := false
  tested : Bool := false
  deriving Inhabited

/-- Ways to leave a command before its end. -/
inductive Departure where
  | leaveLoop (levels : Nat)
  | nextRound (levels : Nat)
  | leaveFunction
  | exit
  | killed
  deriving Repr, DecidableEq, Inhabited

/-- What carries out a part of a script. -/
abbrev Run := ExceptT Departure (StateT Session (Script Output))

namespace Run

/-- A script of its own as a part. -/
def ofScript {α : Type} (s : Script Output α) : Run α := ExceptT.lift (StateT.lift s)

/-- The files. -/
def files : Run FileTree := ofScript (.files id .finish)

/-- Changes the files, and tells how that went. -/
def change (f : FileTree → FileTree × Except FileError Unit) : Run (Except FileError Unit) :=
  ofScript (.files (fun t => (f t).1) fun t => .finish (f t).2)

/-- The absolute path of a place. -/
def pathOf (place : List String) : String := "/" ++ "/".intercalate place

/-- Sets the status. -/
def setStatus (status : Nat) : Run Unit := modify fun s => { s with status }

/-- Writes a text of bytes. -/
def write (fd : Nat) (text : String) : Run (Except FileError Unit) := do
  let bytes := Octets.toBytes text
  if bytes.isEmpty then return .ok ()
  match (← get).sinks.get? fd with
  | some (.pipe n) =>
    ofScript (.emit (n, bytes) (.finish ()))
    return .ok ()
  | some (.file place) => change fun t => t.whole (t.write [] (pathOf place) true bytes)
  | some .closed | none => return .error .denied

/-- Writes a line to the second pipe. -/
def complain (message : String) : Run Unit := do
  let _ ← write 2 (message ++ "\n")

/-- A message of the shell itself. -/
def report (message : String) : Run Unit := do
  let s ← get
  complain (s.name ++ ": " ++ toString s.line ++ ": " ++ message)

/-- A message of the shell, after which the script is left. -/
def abort {α : Type} (message : String) : Run α := do
  report message
  setStatus 2
  throw .exit

/-- Lets time pass; the work beside the script goes on. -/
def pause (d : Duration) : Run Unit := do
  let jobs ← ofScript ((← get).jobs.within d)
  modify fun s => { s with jobs }

/-- Waits until the work beside the script is done. -/
def await : Run Unit := do
  ofScript (← get).jobs
  modify fun s => { s with jobs := .finish () }

/-- What comes of a part, departures included. -/
def observe {α : Type} (r : Run α) : Run (Except Departure α) := ExceptT.lift (ExceptT.run r)

/-- Carries out a part in a session of its own; only its status, what it has read and the work it
has left beside it remain. -/
def isolated (r : Run Unit) : Run Unit := do
  let before ← get
  let result ← observe r
  modify fun s =>
    { before with status := s.status, input := s.input, jobs := s.jobs, pipes := s.pipes }
  match result with
  | .error .killed => throw .killed
  | _ => return

/-- Carries out a part in a changed session; the change is taken back. -/
def withSession {α : Type} (change restore : Session → Session) (r : Run α) : Run α := do
  modify change
  let result ← observe r
  modify restore
  match result with
  | .ok a => return a
  | .error e => throw e

/-- Carries out a part whose status decides what comes next. -/
def testing (r : Run Unit) : Run Unit := do
  let tested := (← get).tested
  withSession (fun s => { s with tested := true }) (fun s => { s with tested }) r

/-- Starts a part beside the script. -/
def beside (r : Run Unit) : Run Unit := do
  let s ← get
  let job : Script Output Unit :=
    (ExceptT.run r).run { s with jobs := .finish (), input := [] } |>.bind fun result =>
      result.2.jobs
  set { s with jobs := s.jobs.alongside job, status := 0 }

/-- A script without what goes to pipe `n`, which is in its ending; `seen` holds what has gone
there already, latest first. -/
def collect {α : Type} (n : Nat) (seen : List UInt8) :
    Script Output α → Script Output (List UInt8 × α)
  | .finish a => .finish (seen.reverse, a)
  | .emit (k, bytes) next =>
    if k = n then collect n (bytes.reverse ++ seen) next else .emit (k, bytes) (collect n seen next)
  | .sleep d next => .sleep d fun u => collect n seen (next u)
  | .trigger next => .trigger (collect n seen next)
  | .note k next => .note k (collect n seen next)
  | .files update next => .files update fun t => collect n seen (next t)

/-- Carries out a part in a session of its own, and gives what it writes to the first pipe. -/
def capture (r : Run Unit) : Run String := do
  let s ← get
  let n := s.pipes
  set { s with sinks := s.sinks.insert 1 (.pipe n), pipes := n + 1 }
  let captured : Script Output (List UInt8 × Except Departure Unit × Session) :=
    collect n [] ((ExceptT.run (isolated r)).run (← get))
  let (bytes, result, after) ← ofScript captured
  set { after with sinks := s.sinks }
  match result with
  | .error e => throw e
  | .ok () => return Octets.ofBytes bytes

/-- The next line of the input without its newline, and whether it had one. -/
def readLine : Run (String × Bool) := do
  let s ← get
  let line := s.input.takeWhile (· ≠ '\n')
  let rest := s.input.drop line.length
  set { s with input := rest.drop 1 }
  return (String.ofList line, !rest.isEmpty)

/-- Everything that is left of the input. -/
def readAll : Run String := do
  let s ← get
  set { s with input := [] }
  return String.ofList s.input

/-! ## Variables -/

/-- The value of a variable. -/
def valueOf? (name : String) : Run (Option String) := return (← get).vars.get? name

/-- Sets a variable. -/
def setVariable (name value : String) : Run Unit :=
  modify fun s => { s with vars := s.vars.insert name value }

end Run

end Taskflow.Shell
