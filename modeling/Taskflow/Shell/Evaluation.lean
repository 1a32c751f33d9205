import Taskflow.Shell.Builtin
set_option autoImplicit false

/-!
# Carrying out scripts

Commands are carried out one after the other, and those that are joined by pipes too: what the
first one writes is kept, and is the input of the next. Work that a script leaves beside it goes on
while the script sleeps and after its end.

## Main definitions

* `Shell.redirecting` — a part with its redirections.
* `Shell.program?` — the program of a name outside of the shell.
* `Shell.dispatch` — finds out what a name means, and carries it out.
* `Shell.step`, `Shell.carryOut` — carry out a command.
* `Shell.interpreter` — the shell as a program with arguments.
-/

namespace Taskflow.Shell

open Run

/-! ## Redirections -/

/-- Why a file could not be opened. -/
def openMessage (creating : Bool) (path : String) (e : FileError) : String :=
  let reason := match e with
    | .notFound => if creating then "Directory nonexistent" else "No such file"
    | e => e.reason
  (if creating then "cannot create " else "cannot open ") ++ path ++ ": " ++ reason

/-- Opens a file to be written to. -/
def openSink (fd : Nat) (append : Bool) (path : String) : Run (Except String Unit) := do
  let dir := (← get).dir
  let text := Octets.toString path
  match ← change fun t => t.whole (t.write dir text append []) with
  | .error e => return .error (openMessage true path e)
  | .ok () =>
    match (← files).locate dir text with
    | .ok place =>
      modify fun s => { s with sinks := s.sinks.insert fd (.file place) }
      return .ok ()
    | .error e => return .error (openMessage true path e)

/-- Opens what a command reads from and writes to, one after the other. -/
def redirect (run : Command → Run Unit) : List Redirection → Run (Except String Unit)
  | [] => return .ok ()
  | .mk fd opening target :: more => do
    let path ← textOf run target
    let opened ← (match opening with
      | .here => do
        modify fun s => { s with input := path.toList }
        return .ok ()
      | .read => do
        match (← files).read (← get).dir (Octets.toString path) with
        | .ok bytes =>
          modify fun s => { s with input := (Octets.ofBytes bytes).toList }
          return .ok ()
        | .error .isADirectory =>
          modify fun s => { s with input := [] }
          return .ok ()
        | .error e => return .error (openMessage false path e)
      | .write => openSink fd false path
      | .append => openSink fd true path
      | .same => do
        if path = "-" then
          modify fun s =>
            if fd = 0 then { s with input := [] } else { s with sinks := s.sinks.insert fd .closed }
          return .ok ()
        match path.toNat? with
        | none => return .error (path ++ ": bad fd number")
        | some other =>
          if fd = 0 then return .ok ()
          match (← get).sinks.get? other with
          | some sink =>
            modify fun s => { s with sinks := s.sinks.insert fd sink }
            return .ok ()
          | none => return .error (path ++ ": Bad file descriptor") : Run (Except String Unit))
    match opened with
    | .ok () => redirect run more
    | .error message => return .error message

/-- Whether a list of redirections changes the input. -/
def changesInput (rs : List Redirection) : Bool :=
  rs.any fun
    | .mk fd opening _ => fd = 0 && opening != .same

/-- Carries out a part with redirections, which are taken back at its end unless `keep` is set. -/
def redirecting (run : Command → Run Unit) (keep : Bool) (rs : List Redirection) (r : Run Unit) :
    Run Unit := do
  let before ← get
  let restore (s : Session) : Session :=
    if keep then s
    else
      { s with
        sinks := before.sinks
        input := if changesInput rs then before.input else s.input }
  withSession id restore do
    match ← redirect run rs with
    | .ok () => r
    | .error message =>
      report message
      setStatus 2

/-! ## Programs -/

/-- The directories in which programs are. -/
def programDirs : List String := ["/bin", "/usr/bin", "/usr/local/bin", "/sbin", "/usr/sbin"]

/-- The name of a program, from a path to where programs are. -/
def programName? (path : String) : Option String :=
  programDirs.findSome? fun dir =>
    if path.startsWith (dir ++ "/") then
      let name := (path.drop (dir.length + 1)).toString
      if name.contains '/' then none else some name
    else none

/-- Whether programs are found by a search path. -/
def searches (path : Option String) : Bool :=
  match path with
  | none => true
  | some dirs => (dirs.splitOn ":").any programDirs.contains

/-- Carries out a process of its own; one that is killed has a status that says so. -/
def asProcess (r : Run Unit) : Run Unit :=
  isolated do
    match ← observe r with
    | .error .killed =>
      complain "Killed"
      setStatus 137
    | .error e => throw e
    | .ok () => return

/-- The options of the shell: whether a text is given, whether failures and unset parameters end
the script, and the other arguments. -/
def shellOptions : List String → (Bool × Bool × Bool) → (Bool × Bool × Bool) × List String
  | [], o => (o, [])
  | a :: rest, o =>
    match a.toList with
    | ['-', '-'] => (o, rest)
    | '-' :: c :: cs =>
      let flags := c :: cs
      shellOptions rest (o.1 || flags.contains 'c', o.2.1 || flags.contains 'e',
        o.2.2 || flags.contains 'u')
    | _ => (o, a :: rest)

/-- The shell as a program with arguments. -/
def interpreter (run : Command → Run Unit) (name : String) (args : List String) : Run Unit := do
  let ((given, stop, refuse), rest) := shellOptions args (false, false, false)
  modify fun s => { s with
    vars := ⟨s.vars.entries.filter fun p => s.exported.contains p.1⟩
    functions := {}, name, params := [], status := 0, line := 1
    stopOnFailure := stop, refuseUnset := refuse, tested := false }
  match given, rest with
  | true, [] => abort "-c requires an argument"
  | true, text :: rest =>
    modify fun s => { s with name := rest.head?.getD name, params := rest.drop 1 }
    Builtin.finishing run (runString run text)
  | false, path :: params =>
    match (← files).read (← get).dir (Octets.toString path) with
    | .ok bytes =>
      modify fun s => { s with name := path, params }
      Builtin.finishing run (runString run (Octets.ofBytes bytes))
    | .error e =>
      modify fun s => { s with line := 0 }
      report (openMessage false path e)
      setStatus (if e = .notFound then 127 else 126)
      throw .exit
  | false, [] => do
    let text ← readAll
    Builtin.finishing run (runString run text)

/-- The program of a name outside of the shell, as a process. -/
def program? (run : Command → Run Unit) (name : String) : Option (List String → Run Unit) :=
  match name with
  | "sh" | "dash" | "bash" => some fun args => interpreter run name args
  | name => utility? .outer name

/-- A name that means nothing. -/
def unknown (name : String) : Run Unit := do
  if name.contains '/' then
    let s ← get
    match (← files).find s.dir (Octets.toString name) with
    | .ok _ =>
      report (name ++ ": Permission denied")
      setStatus 126
    | .error e =>
      report (name ++ ": " ++ (if e = .notFound then "not found" else e.reason))
      setStatus 127
  else
    report (name ++ ": not found")
    setStatus 127

/-- Carries out a function with arguments. -/
def call (run : Command → Run Unit) (body : Command) (args : List String) : Run Unit := do
  let params := (← get).params
  withSession (fun s => { s with params := args }) (fun s => { s with params }) do
    match ← observe (run body) with
    | .error .leaveFunction => return
    | .error e => throw e
    | .ok () => return

/-- Carries out a program outside of the shell. -/
def runProgram (run : Command → Run Unit) (name : String) (args : List String) : Run Unit := do
  let found := match programName? name with
    | some name => program? run name
    | none =>
      program? run name
  match found with
  | some program =>
    if name.contains '/' ∨ searches ((← get).vars.get? "PATH") then asProcess (program args)
    else unknown name
  | none => unknown name

/-- Puts out the exported variables. -/
def printVariables : Run Unit := do
  let s ← get
  let rows := s.vars.entries.filterMap fun p =>
    if s.exported.contains p.1 then some (p.1 ++ "=" ++ p.2) else none
  Utility.put .outer "env" (Octets.unlines rows)

/-- Finds out what a name means, and carries it out. -/
def dispatch (run : Command → Run Unit) : Nat → (functions : Bool) → List String → Run Unit
  | 0, _, _ => abort "nested too deeply"
  | _, _, [] => setStatus 0
  | fuel + 1, functions, name :: args => do
    let s ← get
    match if functions then s.functions.get? name else none with
    | some body => call run body args
    | none =>
      match name, args with
      | "command", "-v" :: wanted :: _ =>
        if (builtin? run wanted).isSome then Utility.put .inner "command" (wanted ++ "\n")
        else if (program? run wanted).isSome then
          Utility.put .inner "command" ("/usr/bin/" ++ wanted ++ "\n")
        else setStatus 127
      | "command", args => dispatch run fuel false args
      | "exec", [] => setStatus 0
      | "exec", wanted :: rest => do
        if (program? run wanted).isSome ∨ wanted.contains '/' then runProgram run wanted rest
        else if wanted = "env" then dispatch run fuel false args
        else
          report ("exec: " ++ wanted ++ ": not found")
          setStatus 127
        throw .exit
      | "env", args => do
        let bare := args.head? = some "-i"
        let args := if bare then args.drop 1 else args
        let assigned := args.takeWhile (·.contains '=')
        asProcess do
          if bare then modify fun s => { s with exported := [] }
          assigned.forM Builtin.export1
          match args.drop assigned.length with
          | [] => printVariables
          | command => dispatch run fuel false command
      | "printenv", name :: _ => do
        match if s.exported.contains name then s.vars.get? name else none with
        | some value => Utility.put .outer "printenv" (value ++ "\n")
        | none => setStatus 1
      | name, args =>
        match builtin? run name with
        | some command => command args
        | none => runProgram run name args

/-! ## Commands -/

/-- Whether the output of a command is part of a word. -/
def takesOutput (w : Word) : Bool :=
  w.any fun
    | .output .. => true
    | _ => false

/-- Leaves the script if its status is a failure that nothing looks at. -/
def stopIfFailed : Run Unit := do
  let s ← get
  if s.stopOnFailure ∧ ¬ s.tested ∧ s.status ≠ 0 then throw .exit

/-- Carries out a simple command. -/
def simple (run : Command → Run Unit) (line : Nat) (assignments : List (String × Word))
    (words : List Word) (redirections : List Redirection) : Run Unit := do
  modify fun s => { s with line }
  let fields ← allFieldsOf run words
  let assign (mark : Bool) : Run Unit :=
    assignments.forM fun (name, w) => do
      setVariable name (← textOf run w)
      if mark then modify fun s => { s with exported := name :: s.exported }
  match fields with
  | [] =>
    redirecting run false redirections do
      assign false
      let substituted := assignments.any (fun a => takesOutput a.2) || words.any takesOutput
      if !substituted then setStatus 0
  | name :: _ =>
    let before ← get
    let keep := isSpecial name
    let restore (s : Session) : Session :=
      if keep ∨ assignments.isEmpty then s
      else { s with vars := before.vars, exported := before.exported }
    withSession id restore do
      redirecting run (fields = ["exec"]) redirections do
        assign (!keep)
        dispatch run (fields.length + 1) true fields
  stopIfFailed

/-- Carries out one round of a loop, and tells whether there may be another. -/
def round (body : Run Unit) : Run Bool := do
  match ← observe body with
  | .ok () => return true
  | .error (.leaveLoop (n + 2)) => throw (.leaveLoop (n + 1))
  | .error (.leaveLoop _) =>
    setStatus 0
    return false
  | .error (.nextRound (n + 2)) => throw (.nextRound (n + 1))
  | .error (.nextRound _) =>
    setStatus 0
    return true
  | .error e => throw e

/-- Carries out a body for each of a list of values of a variable. -/
def eachRound (name : String) (body : Run Unit) : List String → Run Unit
  | [] => return
  | value :: more => do
    setVariable name value
    if ← round body then eachRound name body more

/-- The first branch of a choice that accepts a text. -/
def chosen (run : Command → Run Unit) (subject : List Char) :
    List (List Word × Command) → Run (Option Command)
  | [] => return none
  | (patterns, body) :: more => do
    let accepted ← patterns.anyM fun w => return (← patternOf run w).accepts subject
    if accepted then return some body else chosen run subject more

/-- Carries out a command; `run` carries out those inside it. -/
def step (run : Command → Run Unit) : Command → Run Unit
  | .empty => return
  | .simple line assignments words redirections => simple run line assignments words redirections
  | .sequence first next => do
    run first
    run next
  | .both first next => do
    testing (run first)
    if (← get).status = 0 then run next
  | .either first next => do
    testing (run first)
    if (← get).status ≠ 0 then run next
  | .negation body => do
    testing (run body)
    modify fun s => { s with status := if s.status = 0 then 1 else 0 }
  | .pipeline source target => do
    let text ← capture (run source)
    let input := (← get).input
    withSession (fun s => { s with input := text.toList }) (fun s => { s with input })
      (isolated (run target))
    stopIfFailed
  | .background body => beside (run body)
  | .subshell body => do
    isolated (Builtin.finishing run (run body))
    stopIfFailed
  | .redirected line body redirections => do
    modify fun s => { s with line }
    redirecting run false redirections (run body)
  | .conditional test yes no => do
    testing (run test)
    if (← get).status = 0 then run yes
    else
      setStatus 0
      run no
  | .loop wanted last test body => do
    testing (run test)
    if ((← get).status = 0) = wanted then
      if ← round (run body) then run (.loop wanted (← get).status test body)
    else setStatus last
  | .each name items body => do
    let values ← match items with
      | some words => allFieldsOf run words
      | none => pure (← get).params
    setStatus 0
    eachRound name (run body) values
  | .choice subject branches => do
    let text ← textOf run subject
    match ← chosen run text.toList branches with
    | some body =>
      setStatus 0
      run body
    | none => setStatus 0
  | .definition name body => do
    modify fun s => { s with functions := s.functions.insert name body }
    setStatus 0

/-- Carries out a command; `fuel` bounds how deep commands are nested and how often loops go
round. -/
def carryOut : (fuel : Nat) → Command → Run Unit
  | 0, _ => abort "nested too deeply"
  | fuel + 1, c => step (carryOut fuel) c

/-- The bound on nesting and rounds. -/
def limit : Nat := 10000000

end Taskflow.Shell
