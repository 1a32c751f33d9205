import Taskflow.Run.Summary
import Taskflow.Yaml.Decode
set_option autoImplicit false

/-!
# Task files

A task file lists commands, what they depend on, and how the run is to go. Reading it checks the
file by itself; unknown dependencies and cycles show when the graph is built.

## Main definitions

* `TaskFile`, `TaskEntry`, `RetryEntry` — what a file says.
* `TaskFile.decode` — reads it from a YAML document.
* `TaskFile.violation?` — the first rule that it breaks.
* `TaskFile.parse`, `TaskFile.load` — reads a text and a file.
* `TaskFile.tasks`, `TaskFile.runOptions` — what it asks for.
-/

namespace Taskflow

/-- The retries of a task. -/
structure RetryEntry where
  maxRetries : UInt32
  backoffMillis : Nat := 0
  deriving Repr, DecidableEq, Inhabited

/-- A task of a file. -/
structure TaskEntry where
  id : String
  name : Option String := none
  command : String
  args : List String := []
  workingDir : Option String := none
  environment : Environment := {}
  dependsOn : List String := []
  retry : Option RetryEntry := none
  logFile : Option String := none
  deriving Repr, DecidableEq, Inhabited

/-- A task file. -/
structure TaskFile where
  concurrency : Option Nat := none
  publishInterval : Option Nat := none
  entries : List TaskEntry
  deriving Repr, DecidableEq, Inhabited

/-- What can be wrong with a task file. -/
inductive TaskFileError where
  | unreadable (path : String) (reason : FileError)
  | notYaml
  | invalid (message : String)
  | missing (field : String)
  deriving Repr, DecidableEq

namespace TaskFileError

/-- The text of the error; what is wrong with a YAML text is not told. -/
def message : TaskFileError → String
  | .unreadable path reason => "failed to read file '" ++ path ++ "': " ++ reason.message
  | .notYaml => "YAML parse error"
  | .invalid message => "invalid configuration: " ++ message
  | .missing field => "missing required field: " ++ field

end TaskFileError

namespace RetryEntry

open Yaml (Decode Node)

/-- The fields while they are being read. -/
structure Fields where
  maxRetries : Option Nat := none
  backoffMillis : Option Nat := none

/-- The readers of the fields. -/
def reader? (name : String) : Option (Node → Fields → Decode Fields) :=
  if name = "max_retries" then
    some fun node f => return { f with maxRetries := ← Decode.natUpTo RetryPolicy.maxWord node }
  else if name = "backoff_ms" then
    some fun node f =>
      return { f with backoffMillis := ← Decode.natUpTo RetryPolicy.maxLongWord node }
  else none

/-- Reads the retries of a task. -/
def decode (node : Node) : Decode RetryEntry := do
  let f ← Decode.fields reader? {} node
  return ⟨UInt32.ofNat (← Decode.required f.maxRetries), f.backoffMillis.getD 0⟩

/-- The base of the backoff. -/
def backoff (r : RetryEntry) : Duration := .ofMillis r.backoffMillis

/-- The policy that is asked for. -/
def policy (r : RetryEntry) : RetryPolicy := ⟨r.maxRetries, r.backoff⟩

end RetryEntry

namespace TaskEntry

open Yaml (Decode Node)

/-- The fields while they are being read. -/
structure Fields where
  id : Option String := none
  name : Option String := none
  command : Option String := none
  args : List String := []
  workingDir : Option String := none
  environment : List (String × String) := []
  dependsOn : List String := []
  retry : Option RetryEntry := none
  logFile : Option String := none

/-- The readers of the fields. -/
def reader? (name : String) : Option (Node → Fields → Decode Fields) :=
  let texts := Decode.list Decode.text
  let mayBeText := Decode.option Decode.text
  match name with
  | "id" => some fun node f => return { f with id := some (← Decode.text node) }
  | "name" => some fun node f => return { f with name := ← mayBeText node }
  | "command" => some fun node f => return { f with command := some (← Decode.text node) }
  | "args" => some fun node f => return { f with args := ← texts node }
  | "working_dir" => some fun node f => return { f with workingDir := ← mayBeText node }
  | "environment" =>
    some fun node f => return { f with environment := ← Decode.pairs Decode.text node }
  | "depends_on" => some fun node f => return { f with dependsOn := ← texts node }
  | "retry" =>
    some fun node f => return { f with retry := ← Decode.option RetryEntry.decode node }
  | "log_file" => some fun node f => return { f with logFile := ← mayBeText node }
  | _ => none

/-- Reads a task. -/
def decode (node : Node) : Decode TaskEntry := do
  let f ← Decode.fields reader? {} node
  return {
    id := ← Decode.required f.id
    name := f.name
    command := ← Decode.required f.command
    args := f.args
    workingDir := f.workingDir
    environment := .ofPairs f.environment
    dependsOn := f.dependsOn
    retry := f.retry
    logFile := f.logFile }

/-- The first dependency that breaks a rule, given those before it. -/
def dependencyViolation? (e : TaskEntry) : (seen : List String) → List String → Option String
  | _, [] => none
  | seen, dep :: rest =>
    if dep = e.id then some ("task '" ++ e.id ++ "' cannot depend on itself")
    else if dep ∈ seen then
      some ("task '" ++ e.id ++ "' has duplicate dependency '" ++ dep ++ "'")
    else e.dependencyViolation? (dep :: seen) rest

/-- The command that is asked for. -/
def spec (e : TaskEntry) : CommandSpec :=
  { program := e.command, args := e.args, workingDir := e.workingDir, environment := e.environment }

/-- The task that is asked for. -/
def task (e : TaskEntry) : TaskDefinition :=
  let t := (TaskDefinition.ofCommand ⟨e.id⟩ e.spec).withDependencies (e.dependsOn.map TaskId.mk)
  let t := match e.name with
    | some name => t.named name
    | none => t
  let t := match e.retry with
    | some retry => t.withRetry retry.policy
    | none => t
  match e.logFile with
  | some path => t.withLogFile path
  | none => t

end TaskEntry

namespace TaskFile

open Yaml (Decode Node)

/-- The fields while they are being read. -/
structure Fields where
  concurrency : Option Nat := none
  publishInterval : Option Nat := none
  entries : Option (List TaskEntry) := none

/-- The readers of the fields. -/
def reader? (name : String) : Option (Node → Fields → Decode Fields) :=
  let mayBeNumber := Decode.option (Decode.natUpTo RetryPolicy.maxLongWord)
  match name with
  | "concurrency" => some fun node f => return { f with concurrency := ← mayBeNumber node }
  | "publish_interval_ms" =>
    some fun node f => return { f with publishInterval := ← mayBeNumber node }
  | "tasks" =>
    some fun node f => return { f with entries := some (← Decode.list TaskEntry.decode node) }
  | _ => none

/-- Reads a task file. -/
def decode (node : Node) : Decode TaskFile := do
  let f ← Decode.fields reader? {} node
  return ⟨f.concurrency, f.publishInterval, ← Decode.required f.entries⟩

/-- The first task that breaks a rule, given the identifiers before it. -/
def entryViolation? : (seen : List String) → List TaskEntry → Option TaskFileError
  | _, [] => none
  | seen, e :: rest =>
    if e.id = "" then some (.missing "id")
    else if e.command = "" then some (.missing (e.id ++ ".command"))
    else if e.id ∈ seen then some (.invalid ("duplicate task id: " ++ e.id))
    else
      match e.dependencyViolation? [] e.dependsOn with
      | some message => some (.invalid message)
      | none => entryViolation? (e.id :: seen) rest

/-- The first rule that a task file breaks: there are tasks, the limit on concurrency is not zero,
and the tasks keep theirs, one after the other. -/
def violation? (f : TaskFile) : Option TaskFileError :=
  if f.entries.isEmpty then some (.invalid "task file must have at least one task")
  else if f.concurrency = some 0 then some (.invalid "concurrency cannot be zero")
  else entryViolation? [] f.entries

/-- Checks a task file. -/
def checked (f : TaskFile) : Except TaskFileError TaskFile :=
  match f.violation? with
  | some e => .error e
  | none => .ok f

/-- Reads a text. -/
def parse (text : String) : Except TaskFileError TaskFile :=
  match (Yaml.Document.parse? text).bind (Decode.run? decode) with
  | some f => f.checked
  | none => .error .notYaml

/-- Reads a file. -/
def load (files : FileTree) (path : String) : Except TaskFileError TaskFile :=
  match files.readText FileTree.workingDir path with
  | .ok text => parse text
  | .error reason => .error (.unreadable path reason)

/-- The tasks that are asked for, in the order of the file. -/
def tasks (f : TaskFile) : List TaskDefinition := f.entries.map TaskEntry.task

/-- The options that are asked for. -/
def runOptions (f : TaskFile) : RunOptions :=
  let o : RunOptions := {}
  let o := match f.concurrency with
    | some limit => o.withConcurrency limit
    | none => o
  match f.publishInterval with
  | some interval => { o with publishInterval := interval }
  | none => o

end TaskFile

end Taskflow
