import Taskflow.CommandLine.Reply
set_option autoImplicit false

/-!
# The program

Reads the task file that the arguments name, carries the arguments out, and prints the reply. The
commands of tasks are those that `Launch.start` knows; they see the task file and nothing else.
-/

namespace Taskflow

/-- The files that an invocation needs. -/
def Invocation.file? : Invocation → Option String
  | .run file .. | .validate file | .list file => some file
  | .help _ | .version => none

/-- A tree that holds the file of that name, if it can be read. -/
def loadTree (path : String) : IO FileTree := do
  let bytes ← (IO.FS.readBinFile path).toBaseIO
  let empty := FileTree.initial
  match bytes with
  | .ok bytes =>
    return (empty.store FileTree.workingDir path bytes.toList).toOption.getD empty
  | .error _ => return empty

end Taskflow

open Taskflow in
/-- Carries out the arguments of the program. -/
def main (args : List String) : IO UInt32 := do
  let file := (Invocation.parse args).toOption.bind Invocation.file?
  let files ← match file with
    | some path => loadTree path
    | none => pure FileTree.initial
  let id : RunId := ⟨BitVec.ofNat 128 (← IO.rand 0 340282366920938463463374607431768211455)⟩
  let reply := Reply.ofArguments files Launch.start id args
  let stderr ← IO.getStderr
  for r in reply.log ++ reply.progress do
    stderr.putStrLn (r.level.name ++ " " ++ r.line)
  (← IO.getStdout).putStr reply.stdout
  if let some message := reply.error then stderr.putStrLn ("Error: " ++ message)
  return UInt32.ofNat reply.exit
