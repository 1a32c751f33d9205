set_option autoImplicit false

/-!
# Invocations

What the arguments of the program ask for. Arguments are read from left to right; the first one
that makes no sense, or asks for help, settles the matter.

## Main definitions

* `Invocation` — run, validate or list a task file, or tell about the program itself.
* `Misuse` — what is wrong with arguments.
* `Invocation.parse` — reads arguments.
* `Topic.page` — the text of a page of help.
-/

namespace Taskflow

/-- What help can be about. -/
inductive Topic where
  | program
  | run
  | validate
  | list
  | help
  deriving Repr, DecidableEq, Inhabited

/-- What the program is asked to do. -/
inductive Invocation where
  | run (file : String) (jobs : Option Nat) (strict json : Bool)
  | validate (file : String)
  | list (file : String)
  | help (topic : Topic)
  | version
  deriving Repr, DecidableEq, Inhabited

/-- What is wrong with arguments. -/
inductive Misuse where
  | noCommand
  | unknownCommand (name : String)
  | unexpected (argument : String)
  | repeated (option : String)
  | noValue (name : String)
  | invalidValue (value : String)
  deriving Repr, DecidableEq, Inhabited

/-- What is said about wrong arguments. -/
def Misuse.message : Misuse → String
  | .noCommand => "a subcommand is required"
  | .unknownCommand name => "unrecognized subcommand '" ++ name ++ "'"
  | .unexpected argument => "unexpected argument '" ++ argument ++ "' found"
  | .repeated option => "the argument '" ++ option ++ "' cannot be used multiple times"
  | .noValue name => "a value is required for '" ++ name ++ "' but none was supplied"
  | .invalidValue value => "invalid value '" ++ value ++ "' for '--jobs <JOBS>'"

namespace Topic

/-- The page of help about a command that takes a file and has no options of its own. -/
def filePage (about name : String) : String :=
  about ++ "\n\nUsage: dagrun " ++ name ++ " <FILE>\n\nArguments:\n" ++
    "  <FILE>  Path to the task YAML file\n\nOptions:\n  -h, --help  Print help\n"

/-- The text of a page of help. -/
def page : Topic → String
  | .program => "dagrun - run a graph of dependent commands\n\nUsage: dagrun <COMMAND>\n\n" ++
    "Commands:\n  run       Run every task in a task file\n" ++
    "  validate  Validate a task file without running it\n" ++
    "  list      List tasks in execution order\n" ++
    "  help      Print this message or the help of the given subcommand(s)\n\n" ++
    "Options:\n  -h, --help     Print help\n  -V, --version  Print version\n"
  | .run => "Run every task in a task file\n\nUsage: dagrun run [OPTIONS] <FILE>\n\nArguments:\n" ++
    "  <FILE>  Path to the task YAML file\n\nOptions:\n" ++
    "  -j, --jobs <JOBS>  Maximum concurrent tasks (overrides the file, default: 4)\n" ++
    "      --strict       Exit with an error when any task failed\n" ++
    "      --json         Print the run summary as JSON on stdout\n" ++
    "  -h, --help         Print help\n"
  | .validate => filePage "Validate a task file without running it" "validate"
  | .list => filePage "List tasks in execution order" "list"
  | .help => "Print this message or the help of the given subcommand(s)\n\n" ++
    "Usage: dagrun help [COMMAND]\n"

/-- The command of a name. -/
def ofName? (name : String) : Option Topic :=
  match name with
  | "run" => some .run
  | "validate" => some .validate
  | "list" => some .list
  | "help" => some .help
  | _ => none

end Topic

namespace Invocation

/-- What has been read of the arguments of a command; `bare` is set behind `--`. -/
structure Draft where
  file : Option String := none
  jobs : Option Nat := none
  strict : Bool := false
  json : Bool := false
  bare : Bool := false
  deriving Repr, DecidableEq, Inhabited

/-- The greatest number of jobs that can be written. -/
def maxJobs : Nat := 18446744073709551615

/-- Reads a number of jobs: digits, perhaps behind a plus sign. -/
def jobs? (text : String) : Option Nat :=
  let digits := match text.toList with
    | '+' :: cs => cs
    | cs => cs
  if digits ≠ [] ∧ digits.all Char.isDigit then
    let n := digits.foldl (fun n c => 10 * n + (c.toNat - 48)) 0
    if n ≤ maxJobs then some n else none
  else none

/-- Takes a number of jobs. -/
def Draft.withJobs (d : Draft) (text : String) : Except Misuse Draft :=
  match jobs? text with
  | none => .error (.invalidValue text)
  | some n =>
    if d.jobs.isSome then .error (.repeated "--jobs <JOBS>") else .ok { d with jobs := some n }

/-- Takes an argument that is no option. -/
def Draft.withFile (d : Draft) (path : String) : Except Misuse Draft :=
  if d.file.isSome then .error (.unexpected path)
  else if path = "" then .error (.noValue "<FILE>")
  else .ok { d with file := some path }

/-- A long option as its name and the value behind an equals sign. -/
def splitLong (argument : String) : String × Option String :=
  let cs := argument.toList
  let name := cs.takeWhile (· ≠ '=')
  (String.ofList name,
    if name.length < cs.length then some (String.ofList (cs.drop (name.length + 1))) else none)

/-- What reading one argument gives: more of the command is known, a value is to follow, or help is
asked for. -/
inductive Taken where
  | draft (d : Draft)
  | wantsValue
  | help

/-- Reads one argument of a command; only `run` has options. -/
def take (hasOptions : Bool) (argument : String) (d : Draft) : Except Misuse Taken :=
  if d.bare then .draft <$> d.withFile argument
  else
    match argument.toList with
    | ['-', '-'] => .ok (.draft { d with bare := true })
    | '-' :: '-' :: _ =>
      match splitLong argument with
      | ("--help", none) => .ok .help
      | ("--jobs", value) =>
        if !hasOptions then .error (.unexpected argument)
        else
          match value with
          | none => .ok .wantsValue
          | some value => .draft <$> d.withJobs value
      | ("--strict", none) =>
        if !hasOptions then .error (.unexpected argument)
        else if d.strict then .error (.repeated argument)
        else .ok (.draft { d with strict := true })
      | ("--json", none) =>
        if !hasOptions then .error (.unexpected argument)
        else if d.json then .error (.repeated argument)
        else .ok (.draft { d with json := true })
      | _ => .error (.unexpected argument)
    | '-' :: 'h' :: _ => .ok .help
    | '-' :: 'j' :: value =>
      if !hasOptions then .error (.unexpected argument)
      else
        match value with
        | [] => .ok .wantsValue
        | '=' :: value => .draft <$> d.withJobs (String.ofList value)
        | value => .draft <$> d.withJobs (String.ofList value)
    | '-' :: _ :: _ => .error (.unexpected argument)
    | _ => .draft <$> d.withFile argument

/-- Reads the arguments of a command, of which it makes an invocation. -/
def command (topic : Topic) (hasOptions : Bool) (finish : Draft → String → Invocation) :
    List String → Draft → Except Misuse Invocation
  | [], d =>
    match d.file with
    | some file => .ok (finish d file)
    | none => .error (.noValue "<FILE>")
  | argument :: rest, d => do
    match ← take hasOptions argument d with
    | .help => return .help topic
    | .draft d => command topic hasOptions finish rest d
    | .wantsValue =>
      match rest with
      | [] => throw (.noValue "--jobs <JOBS>")
      | value :: rest =>
        if value.startsWith "-" then throw (.noValue "--jobs <JOBS>")
        else command topic hasOptions finish rest (← d.withJobs value)

/-- Reads the arguments of the program. -/
def parse : List String → Except Misuse Invocation
  | [] => .error .noCommand
  | "run" :: rest =>
    command .run true (fun d file => .run file d.jobs d.strict d.json) rest {}
  | "validate" :: rest => command .validate false (fun _ file => .validate file) rest {}
  | "list" :: rest => command .list false (fun _ file => .list file) rest {}
  | ["help"] => .ok (.help .program)
  | ["help", name] =>
    match Topic.ofName? name with
    | some topic => .ok (.help topic)
    | none => .error (.unknownCommand name)
  | "help" :: _ :: name :: _ => .error (.unknownCommand name)
  | "--help" :: _ => .ok (.help .program)
  | "--version" :: _ => .ok .version
  | argument :: _ =>
    match argument.toList with
    | '-' :: 'h' :: _ => .ok (.help .program)
    | '-' :: 'V' :: _ => .ok .version
    | '-' :: _ :: _ => .error (.unexpected argument)
    | _ => .error (.unknownCommand argument)

end Invocation

end Taskflow
