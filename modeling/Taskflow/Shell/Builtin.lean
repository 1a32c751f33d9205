import Taskflow.Shell.Expansion
import Taskflow.Shell.Reader
import Taskflow.Shell.Utility
set_option autoImplicit false

/-!
# Commands of the shell itself

The commands that change the session, or leave the commands around them. Those that carry out
further commands get what does so as an argument.

## Main definitions

* `Shell.runText` — carries out a text of commands.
* `Shell.isSpecial` — whether assignments in front of a command outlive it.
* `Shell.builtin?` — the command of a name.
-/

namespace Taskflow.Shell

/-- Carries out the lines of a script one after the other; `fuel` bounds their number. -/
def runText (run : Command → Run Unit) : (fuel : Nat) → Source → Run Unit
  | 0, _ => return
  | fuel + 1, source => do
    match readLine source with
    | .error e =>
      modify fun s => { s with line := e.line }
      Run.abort e.message
    | .ok (none, _) => return
    | .ok (some c, rest) =>
      run c
      runText run fuel rest

/-- Carries out a text of commands. -/
def runString (run : Command → Run Unit) (text : String) : Run Unit :=
  runText run (text.length + 1) ⟨text.toList, 1⟩

namespace Builtin

open Run

/-- The numbers of signals by their names. -/
def signals : List (String × Nat) :=
  [("HUP", 1), ("INT", 2), ("QUIT", 3), ("ABRT", 6), ("KILL", 9), ("USR1", 10), ("SEGV", 11),
    ("USR2", 12), ("PIPE", 13), ("ALRM", 14), ("TERM", 15), ("CHLD", 17), ("CONT", 18)]

/-- The number of a signal, from its name or number. -/
def signal? (s : String) : Option Nat :=
  match s.toNat? with
  | some n => some n
  | none =>
    let name := if s.startsWith "SIG" then (s.drop 3).toString else s
    (signals.find? fun p => p.1 = name).map (·.2)

/-- A status from an argument. -/
def statusOf (name : String) (args : List String) : Run Unit :=
  match args with
  | [] => return
  | a :: _ =>
    match a.toNat? with
    | some n => setStatus (n % 256)
    | none => abort (name ++ ": Illegal number: " ++ a)

/-- A number of levels from an argument. -/
def levels (args : List String) : Nat := ((args.head?.bind String.toNat?).getD 1)

/-- Goes to another directory. -/
def cd (args : List String) : Run Unit := do
  let s ← get
  let home := (s.vars.get? "HOME").getD ""
  let (path, tell) := match args.filter (· ≠ "--") with
    | [] => (home, false)
    | "-" :: _ => ((s.vars.get? "OLDPWD").getD "", true)
    | p :: _ => (p, false)
  match (← files).find s.dir (Octets.toString path) with
  | .ok (place, .directory) =>
    let text := Octets.ofString (pathOf place)
    modify fun s => { s with
      dir := place
      vars := (s.vars.insert "OLDPWD" (Octets.ofString (pathOf s.dir))).insert "PWD" text }
    setStatus 0
    if tell then Utility.put .inner "cd" (text ++ "\n")
  | _ => Utility.failing .inner "cd" ("can't cd to " ++ path) 2

/-- Exports variables, which may be assigned. -/
def export1 (arg : String) : Run Unit := do
  let cs := arg.toList
  let name := String.ofList (cs.takeWhile (· ≠ '='))
  if !isName name then abort ("export: " ++ arg ++ ": bad variable name")
  if name.length < cs.length then setVariable name (String.ofList (cs.drop (name.length + 1)))
  modify fun s => { s with exported := name :: s.exported.filter (· ≠ name) }

/-- Changes the option of a name. -/
def named (name : String) (on : Bool) : Run Unit := do
  if name = "errexit" then modify fun s => { s with stopOnFailure := on }
  if name = "nounset" then modify fun s => { s with refuseUnset := on }

/-- Changes options and arguments. -/
def set1 : List String → Run Unit
  | [] => return
  | "--" :: rest => modify fun s => { s with params := rest }
  | "-o" :: name :: rest => do
    named name true
    set1 rest
  | "+o" :: name :: rest => do
    named name false
    set1 rest
  | a :: rest =>
    match a.toList with
    | sign :: options =>
      if (sign = '-' ∨ sign = '+') ∧ options ≠ [] then do
        let on : Bool := sign = '-'
        if options.contains 'e' then modify fun s => { s with stopOnFailure := on }
        if options.contains 'u' then modify fun s => { s with refuseUnset := on }
        set1 rest
      else modify fun s => { s with params := a :: rest }
    | [] => modify fun s => { s with params := a :: rest }

/-- Sends a signal; the process of the script is known by one number. -/
def kill (args : List String) : Run Unit := do
  let (signal, targets) := match args with
    | "-s" :: name :: rest => (signal? name, rest)
    | "--" :: rest => (some 15, rest)
    | a :: rest => if a.startsWith "-" then (signal? (a.drop 1).toString, rest) else (some 15, args)
    | [] => (some 15, [])
  match signal, targets with
  | _, [] =>
    let usage := "Usage: kill [-s sigspec | -signum | -sigspec] [pid | job]..."
    Utility.failing .inner "kill" usage 2
  | none, _ => Utility.failing .inner "kill" "Illegal option" 2
  | some 0, _ | some 17, _ | some 18, _ => setStatus 0
  | some _, target :: _ =>
    if target = "4242" ∨ target = "0" then throw .killed
    else Utility.failing .inner "kill" "No such process"

/-- Takes away the meaning of a backslash; every character is told whether it may separate. -/
def readChars (raw : Bool) : List Char → List Atom
  | '\\' :: c :: cs =>
    if raw then .char '\\' .expanded :: readChars raw (c :: cs)
    else .char c .quoted :: readChars raw cs
  | c :: cs => .char c .expanded :: readChars raw cs
  | [] => []

/-- Lines of the input that are joined by backslashes at their ends. -/
def readLines (raw : Bool) : Nat → Run (String × Bool)
  | 0 => return ("", false)
  | fuel + 1 => do
    let (line, complete) ← Run.readLine
    if !raw && complete && line.endsWith "\\" then
      let (more, complete) ← readLines raw fuel
      return ((line.dropEnd 1).toString ++ more, complete)
    else return (line, complete)

/-- Gives the fields of a line to variables; the last one takes what is left. -/
def assignFields (ifs : List Char) : List String → List Atom → Run Unit
  | [], _ => return
  | [name], atoms => do
    let blank : Atom → Bool
      | .char c .expanded => ifs.contains c && c.isWhitespace
      | _ => false
    let trimmed := ((atoms.dropWhile blank).reverse.dropWhile blank).reverse
    setVariable name (textOfAtoms trimmed)
  | name :: names, atoms => do
    let isBlank : Atom → Bool
      | .char c .expanded => ifs.contains c && c.isWhitespace
      | _ => false
    let ends : Atom → Bool
      | .char c .expanded => ifs.contains c
      | _ => false
    let atoms := atoms.dropWhile isBlank
    let field := atoms.takeWhile fun a => !ends a
    let rest := (atoms.drop field.length).dropWhile isBlank
    let rest := match rest with
      | a :: more => if ends a then more else rest
      | [] => []
    setVariable name (textOfAtoms field)
    assignFields ifs names rest

/-- Reads a line into variables. -/
def read (args : List String) : Run Unit := do
  let raw := args.contains "-r"
  let names := args.filter fun a => !a.startsWith "-"
  let s ← get
  let (line, complete) ← readLines raw (s.input.length + 1)
  assignFields (separators s) (if names.isEmpty then ["REPLY"] else names)
    (readChars raw line.toList)
  setStatus (if complete then 0 else 1)

/-- Takes variables away. -/
def unset (args : List String) : Run Unit := do
  modify fun s => { s with
    vars := ⟨s.vars.entries.filter fun p => !args.contains p.1⟩
    exported := s.exported.filter fun n => !args.contains n
    functions := if args.head? = some "-f" then
      ⟨s.functions.entries.filter fun p => !args.contains p.1⟩ else s.functions }
  setStatus 0

/-- Drops the first arguments. -/
def shift (args : List String) : Run Unit := do
  let n := levels args
  if (← get).params.length < n then abort "shift: can't shift that many"
  modify fun s => { s with params := s.params.drop n }
  setStatus 0

/-- Keeps what is to be done at the end of the script; other signals have no action. -/
def trap (args : List String) : Run Unit := do
  match args with
  | action :: signals =>
    if signals.contains "EXIT" ∨ signals.contains "0" then
      modify fun s => { s with onExit := if action = "-" ∨ action = "" then none else some action }
  | [] => pure ()
  setStatus 0

/-- Carries out a script and what is to be done at its end, which does not change its status unless
it leaves the script itself. -/
def finishing (run : Command → Run Unit) (r : Run Unit) : Run Unit := do
  modify fun s => { s with onExit := none }
  let result ← observe r
  let s ← get
  match result, s.onExit with
  | .error .killed, _ => throw .killed
  | _, none => return
  | _, some action =>
    set { s with onExit := none }
    match ← observe (runString run action) with
    | .error .exit => return
    | _ => setStatus s.status

/-- Carries out a file of commands. -/
def source (run : Command → Run Unit) (args : List String) : Run Unit := do
  match args with
  | [] => return
  | path :: _ =>
    match (← files).read (← get).dir (Octets.toString path) with
    | .ok bytes => runString run (Octets.ofBytes bytes)
    | .error _ => abort (".: cannot open " ++ path ++ ": No such file")

end Builtin

/-- Whether assignments in front of a command outlive it. -/
def isSpecial (name : String) : Bool :=
  [":", ".", "break", "continue", "eval", "exec", "exit", "export", "readonly", "return", "set",
    "shift", "times", "trap", "unset"].contains name

open Builtin Run in
/-- The command of a name; `run` carries out commands. -/
def builtin? (run : Command → Run Unit) (name : String) : Option (List String → Run Unit) :=
  match name with
  | ":" => some fun _ => setStatus 0
  | "." => some (source run)
  | "break" => some fun args => throw (.leaveLoop (levels args))
  | "continue" => some fun args => throw (.nextRound (levels args))
  | "return" => some fun args => do
    statusOf "return" args
    throw .leaveFunction
  | "exit" => some fun args => do
    statusOf "exit" args
    throw .exit
  | "cd" => some cd
  | "eval" => some fun args => do
    setStatus 0
    runString run (" ".intercalate args)
  | "export" | "readonly" => some fun args => do
    (args.filter (· ≠ "-p")).forM export1
    setStatus 0
  | "local" => some fun args => do
    (args.filter (·.contains '=')).forM export1
    setStatus 0
  | "set" => some fun args => do
    set1 args
    setStatus 0
  | "shift" => some shift
  | "unset" => some unset
  | "read" => some read
  | "kill" => some kill
  | "wait" => some fun _ => do
    await
    setStatus 0
  | "trap" => some trap
  | "umask" | "ulimit" | "times" | "hash" | "alias" | "unalias" => some fun _ => setStatus 0
  | _ =>
    if ["echo", "printf", "true", "false", "test", "[", "pwd"].contains name then
      utility? .inner name
    else none

end Taskflow.Shell
