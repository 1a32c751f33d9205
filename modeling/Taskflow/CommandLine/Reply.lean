import Taskflow.CommandLine.Invocation
import Taskflow.Command.Launch
import Taskflow.Run.Summary
import Taskflow.State.Rendering
import Taskflow.TaskFile
set_option autoImplicit false

/-!
# Replies

What the program does when it is invoked: what it prints, what it logs, and its exit code.

## Main definitions

* `Reply` — what comes of an invocation.
* `Reply.ofInvocation` — carries out an invocation.
* `Reply.ofArguments` — carries out arguments, which may be wrong.
-/

namespace Taskflow

/-- What comes of an invocation: the exit code, what the program itself logs, the progress of the
tasks, what is printed, and what went wrong. -/
structure Reply where
  exit : Nat := 0
  log : List LogRecord := []
  progress : List LogRecord := []
  stdout : String := ""
  error : Option String := none
  deriving Repr, Inhabited

namespace Reply

/-- The version of the program. -/
def version : String := "0.1.0"

/-- A reply that something went wrong. -/
def failed (log : List LogRecord) (message : String) : Reply :=
  { exit := 1, log, error := some message }

/-- Reads a task file, and builds its graph. -/
def loadGraph (files : FileTree) (file : String) : Except String (TaskFile × TaskGraph) :=
  match TaskFile.load files file with
  | .error e => .error e.message
  | .ok f =>
    match TaskGraph.build f.tasks with
    | .error e => .error e.message
    | .ok g => .ok (f, g)

/-- The line of a task in a list. -/
def taskLine (t : TaskDefinition) : String :=
  let label := if t.name = t.id.text then t.id.text else t.id.text ++ " (" ++ t.name ++ ")"
  let dependencies := if t.dependencies.isEmpty then ""
    else " (depends on: " ++ TaskId.join t.dependencies ++ ")"
  "  - " ++ label ++ dependencies ++ "\n"

/-- Lists the tasks of a file in the order of execution. -/
def list (files : FileTree) (file : String) : Reply :=
  match loadGraph files file with
  | .error message => failed [] message
  | .ok (f, g) =>
    let limit := match f.concurrency with
      | some n => "  Concurrency: " ++ toString n ++ "\n"
      | none => ""
    { stdout := "Tasks in " ++ file ++ ":\n" ++ limit ++ "\n" ++
        String.join (g.orderedTasks.map taskLine) }

/-- Checks a file and its graph. -/
def validate (files : FileTree) (file : String) : Reply :=
  let opening : LogRecord := ⟨.info, "Validating tasks in: " ++ file, []⟩
  match loadGraph files file with
  | .error message =>
    failed [opening, ⟨.error, "Validation failed: " ++ message, []⟩] message
  | .ok (_, g) =>
    { log := [opening, ⟨.info, "All " ++ toString g.size ++ " task(s) are valid", []⟩] }

/-- The exit code of a program that breaks down. -/
def breakdownCode : Nat := 101

/-- Runs the tasks of a file. -/
def run (files : FileTree) (launch : Launcher) (id : RunId) (file : String) (jobs : Option Nat)
    (strict json : Bool) : Reply :=
  let opening : LogRecord := ⟨.info, "Loading tasks from: " ++ file, []⟩
  match TaskFile.load files file with
  | .error e => failed [opening] e.message
  | .ok f =>
    let o := f.runOptions
    let o := match jobs with
      | some limit => o.withConcurrency limit
      | none => o
    let started : LogRecord := ⟨.info, "starting run",
      [("tasks", .int f.tasks.length), ("concurrency", .int o.concurrency)]⟩
    let log := [opening, started]
    match (runTasks f.tasks o launch id {} { Machine.world { free := 0 } with files }).ending with
    | .breakdown message => { exit := breakdownCode, log, error := some message }
    | .error e => failed log e.message
    | .summary s =>
      let notRun : List LogRecord := if s.blocked.isEmpty then []
        else [⟨.warn, "Not run because a dependency failed: " ++ TaskId.join s.blocked, []⟩]
      let outcome := if strict then s.orFail else .ok s
      let error? := match outcome with
        | .error e => some e.message
        | .ok _ => none
      { exit := if error?.isSome then 1 else 0
        log := log ++ notRun
        progress := (Renderer.empty.renderFinal s.state).2
        stdout := if json then s.toJson.pretty ++ "\n" else ""
        error := error? }

/-- Carries out an invocation, given the files, what starting a command does, and the identifier of
a run. -/
def ofInvocation (files : FileTree) (launch : Launcher) (id : RunId) : Invocation → Reply
  | .run file jobs strict json => run files launch id file jobs strict json
  | .validate file => validate files file
  | .list file => list files file
  | .help topic => { stdout := topic.page }
  | .version => { stdout := "dagrun " ++ version ++ "\n" }

/-- Carries out arguments; wrong ones have the exit code 2. -/
def ofArguments (files : FileTree) (launch : Launcher) (id : RunId) (args : List String) : Reply :=
  match Invocation.parse args with
  | .ok i => ofInvocation files launch id i
  | .error misuse => { exit := 2, error := some misuse.message }

end Reply

end Taskflow
