import Taskflow.Environment
import Taskflow.Files.Path
set_option autoImplicit false

/-!
# Commands

What to start: a program with its arguments, working directory and variables; and how a command
that ended badly is described.

## Main definitions

* `CommandSpec` — what to start.
* `CommandFailure` — a command and the exit code with which it failed.
-/

namespace Taskflow

/-- A program, its arguments, its working directory and its variables. -/
structure CommandSpec where
  program : String
  args : List String := []
  workingDir : Option String := none
  environment : Environment := {}
  deriving Repr, DecidableEq, Inhabited

/-- A command that ended with an exit code other than zero; a command ended by a signal has the
code -1. -/
structure CommandFailure where
  command : String
  args : List String
  workingDir : Option String
  exitCode : Int
  deriving Repr, DecidableEq, Inhabited

namespace CommandFailure

/-- The program and its arguments with blanks between them. -/
def commandLine (f : CommandFailure) : String := " ".intercalate (f.command :: f.args)

/-- The text of the failure. -/
def message (f : CommandFailure) : String :=
  "command \x60" ++ f.commandLine ++ "\x60 exited with code " ++ toString f.exitCode

/-- Equality; working directories are compared as paths. -/
def sameAs (f g : CommandFailure) : Bool :=
  f.command = g.command ∧ f.args = g.args ∧ Path.sameOption f.workingDir g.workingDir ∧
    f.exitCode = g.exitCode

/-- As JSON. -/
def toJson (f : CommandFailure) : Json :=
  .obj [("command", .str f.command), ("args", .arr (f.args.map .str)),
    ("working_dir", .ofOption .str f.workingDir), ("exit_code", .int f.exitCode)]

end CommandFailure

namespace CommandSpec

/-- A program without arguments. -/
def ofProgram (program : String) : CommandSpec := { program }

/-- Appends arguments. -/
def withArgs (s : CommandSpec) (args : List String) : CommandSpec :=
  { s with args := s.args ++ args }

/-- Sets one variable. -/
def withVar (s : CommandSpec) (name value : String) : CommandSpec :=
  { s with environment := s.environment.set name value }

/-- Replaces all variables. -/
def withEnvironment (s : CommandSpec) (e : Environment) : CommandSpec :=
  { s with environment := e }

/-- Sets the working directory. -/
def withWorkingDir (s : CommandSpec) (dir : String) : CommandSpec :=
  { s with workingDir := some dir }

/-- This command, failed with a code. -/
def failure (s : CommandSpec) (exitCode : Int) : CommandFailure :=
  ⟨s.program, s.args, s.workingDir, exitCode⟩

/-- Equality; variables are compared as maps, and working directories as paths. -/
def sameAs (s t : CommandSpec) : Bool :=
  s.program = t.program ∧ s.args = t.args ∧ Path.sameOption s.workingDir t.workingDir ∧
    s.environment.sameAs t.environment

end CommandSpec

end Taskflow
