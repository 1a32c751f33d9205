import Taskflow.Shell.Condition
import Taskflow.Shell.Format
import Taskflow.Shell.Session
set_option autoImplicit false

/-!
# Utilities

Programs that read, write and change files, and do nothing else: each is a part of a script that
takes arguments and leaves a status.

## Main definitions

* `Shell.Dialect` — programs that are part of the shell differ a little from those that are not.
* `Shell.utility?` — the program of a name.
-/

namespace Taskflow.Shell

/-- Whether a program is part of the shell, or stands by itself. -/
inductive Dialect where
  | inner
  | outer
  deriving Repr, DecidableEq, Inhabited

namespace Utility

open Run

/-- What carries out a program with its arguments. -/
abbrev Program := List String → Run Unit

/-- A message of a program, which then has failed. -/
def failing (d : Dialect) (name message : String) (status : Nat := 1) : Run Unit := do
  match d with
  | .inner => report (name ++ ": " ++ message)
  | .outer => complain (name ++ ": " ++ message)
  setStatus status

/-- Puts out a text, and succeeds if that does. -/
def put (d : Dialect) (name text : String) : Run Unit := do
  match ← write 1 text with
  | .ok () => setStatus 0
  | .error e =>
    match d with
    | .inner => failing d name (name ++ ": I/O error")
    | .outer => failing d name ("write error: " ++ e.reason)

/-- Fails for a file. -/
def failingOn (name path : String) (e : FileError) : Run Unit :=
  failing .outer name (path ++ ": " ++ e.reason)

/-- The text of a file, or of the input for a hyphen. -/
def readFile (name path : String) : Run (Option String) := do
  if path = "-" then return some (← readAll)
  match (← files).read (← get).dir (Octets.toString path) with
  | .ok bytes => return some (Octets.ofBytes bytes)
  | .error e =>
    failingOn name path e
    return none

/-- The texts of files, or of the input if none is named; files that cannot be read count as
failures. -/
def readFiles (name : String) : List String → Run (List (String × String) × Nat)
  | [] => return ([], 0)
  | path :: more => do
    let text ← readFile name path
    let (texts, failures) ← readFiles name more
    match text with
    | some text => return ((path, text) :: texts, failures)
    | none => return (texts, failures + 1)

/-- Puts out what is made of the texts of files or of the input. -/
def filter (name : String) (f : String → String) (paths : List String) : Run Unit := do
  let (texts, failures) ← readFiles name (if paths.isEmpty then ["-"] else paths)
  put .outer name (f (String.join (texts.map (·.2))))
  if 0 < failures then setStatus 1

/-! ## Programs that write -/

/-- Puts out its arguments. -/
def echo (d : Dialect) (args : List String) : Run Unit :=
  let isOption (a : String) : Bool :=
    match a.toList with
    | '-' :: c :: cs => (c :: cs).all fun c => "neE".toList.contains c
    | _ => false
  let options := match d with
    | .inner => (args.take 1).filter (· = "-n")
    | .outer => args.takeWhile isOption
  let last := options.foldl (fun acc o => acc ++ o.toList) []
  let escapes := match d with
    | .inner => true
    | .outer => (last.filter fun c => c = 'e' || c = 'E').getLast? = some 'e'
  let text := " ".intercalate (args.drop options.length)
  let (text, stops) := if escapes then
      let (cs, stops) := unescape .behindZero (d = .outer) (text.length + 1) text.toList
      (String.ofList cs, stops)
    else (text, false)
  put d "echo" (text ++ (if stops || last.contains 'n' then "" else "\n"))

/-- Puts out its arguments by a format. -/
def printf (d : Dialect) (args : List String) : Run Unit := do
  match if args.head? = some "--" then args.drop 1 else args with
  | [] =>
    match d with
    | .inner => failing d "printf" "usage: printf format [arg ...]" 2
    | .outer =>
      failing d "printf" "missing operand\nTry 'printf --help' for more information."
  | format :: args =>
    let (text, problems) := formatted (d = .outer) format args
    put d "printf" text
    problems.forM fun problem => failing d "printf" problem

/-- The numbers from `first` to `last` by steps. -/
def sequence (first step last : Int) : List Int :=
  if step = 0 then []
  else
    let count := Int.fdiv (last - first) step + 1
    (List.range count.toNat).map fun (i : Nat) => first + step * i

/-- Numbers with zeros in front, so that all are as wide as the widest. -/
def equallyWide (numbers : List Int) : List String :=
  let digits (n : Int) : String := toString n.natAbs
  let sign (n : Int) : String := if n < 0 then "-" else ""
  let width := numbers.foldl (fun w n => max w ((sign n).length + (digits n).length)) 0
  numbers.map fun n =>
    sign n ++ "".pushn '0' (width - (sign n).length - (digits n).length) ++ digits n

/-- The options of `seq`: what stands between numbers, and whether they are to be equally wide. -/
def seqOptions : List String → (String × Bool) → (String × Bool) × List String
  | "-w" :: rest, o => seqOptions rest (o.1, true)
  | "-s" :: s :: rest, o => seqOptions rest (s, o.2)
  | a :: rest, o =>
    match a.toList with
    | '-' :: 's' :: cs => seqOptions rest (String.ofList cs, o.2)
    | _ => (o, a :: rest)
  | [], o => (o, [])

/-- Puts out numbers one after the other. -/
def seq (args : List String) : Run Unit := do
  let ((separator, wide), args) := seqOptions args ("\n", false)
  let hint := "\nTry 'seq --help' for more information."
  match args.find? fun a => a.toInt?.isNone with
  | some a => failing .outer "seq" ("invalid floating point argument: '" ++ a ++ "'" ++ hint)
  | none =>
    let numbers ← match args.filterMap String.toInt? with
      | [last] => pure (some (sequence 1 1 last))
      | [first, last] => pure (some (sequence first 1 last))
      | [first, step, last] => pure (some (sequence first step last))
      | _ => pure none
    match numbers with
    | none => failing .outer "seq" ("missing operand" ++ hint)
    | some [] => setStatus 0
    | some numbers =>
      let texts := if wide then equallyWide numbers else numbers.map toString
      put .outer "seq" (separator.intercalate texts ++ "\n")

/-- Puts out its arguments again and again, though not for ever. -/
def yes (args : List String) : Run Unit :=
  let line := (if args.isEmpty then "y" else " ".intercalate args) ++ "\n"
  put .outer "yes" (String.join (List.replicate 65536 line))

/-! ## Programs that read and write -/

/-- The number of an option such as `-n 3`, `-n3` or `-3`, and the other arguments. -/
def countOption (letter : Char) : List String → Option String × List String
  | [] => (none, [])
  | a :: rest =>
    match a.toList, rest with
    | ['-', c], n :: more => if c = letter then (some n, more) else
      let (found, others) := countOption letter rest
      (found, a :: others)
    | '-' :: c :: cs, _ =>
      if c = letter then (some (String.ofList cs), rest)
      else if letter = 'n' ∧ c.isDigit then (some (String.ofList (c :: cs)), rest)
      else
        let (found, others) := countOption letter rest
        (found, a :: others)
    | _, _ =>
      let (found, others) := countOption letter rest
      (found, a :: others)

/-- The lines of a text, each with its newline if it has one. -/
def linesOf (s : String) : List String :=
  let (lines, complete) := Octets.lines s
  match lines.reverse with
  | [] => []
  | last :: before =>
    ((if complete then last ++ "\n" else last) :: before.map (· ++ "\n")).reverse

/-- The beginning of a text. -/
def head (args : List String) : Run Unit :=
  match countOption 'c' args with
  | (some n, paths) => filter "head" (fun s => (s.take (n.toNat?.getD 10)).toString) paths
  | (none, args) =>
    let (n, paths) := countOption 'n' args
    let n := (n.bind String.toNat?).getD 10
    filter "head" (fun s => String.join ((linesOf s).take n)) paths

/-- The end of a text. -/
def tail (args : List String) : Run Unit :=
  match countOption 'c' args with
  | (some n, paths) => filter "tail" (fun s => (s.takeEnd (n.toNat?.getD 10)).toString) paths
  | (none, args) =>
    let (n, paths) := countOption 'n' args
    let n := n.getD "10"
    match n.toList with
    | '+' :: cs =>
      let from1 := ((String.ofList cs).toNat?).getD 1
      filter "tail" (fun s => String.join ((linesOf s).drop (from1 - 1))) paths
    | _ =>
      let n := (n.toNat?).getD 10
      filter "tail" (fun s =>
        let lines := linesOf s
        String.join (lines.drop (lines.length - n))) paths

/-- The number of words of a text. -/
def wordCount (s : String) : Nat :=
  (s.toList.foldl (fun (acc : Nat × Bool) c =>
    if c.isWhitespace || c = '\x0b' || c = '\x0c' then (acc.1, false)
    else (if acc.2 then acc.1 else acc.1 + 1, true)) (0, false)).1

/-- Counts lines, words and bytes. -/
def wc (args : List String) : Run Unit := do
  let options := (args.filter (·.startsWith "-")).flatMap fun a => a.toList.drop 1
  let paths := args.filter fun a => !a.startsWith "-"
  let (texts, failures) ← readFiles "wc" (if paths.isEmpty then ["-"] else paths)
  let wanted (c : Char) : Bool := options.isEmpty || options.contains c
  let counts (s : String) : List Nat :=
    (if wanted 'l' then [s.toList.count '\n'] else []) ++
      (if wanted 'w' then [wordCount s] else []) ++
      (if wanted 'c' || options.contains 'm' then [s.length] else [])
  let all := String.join (texts.map (·.2))
  let width := if paths.isEmpty then (if (counts "").length = 1 then 1 else 7)
    else (toString all.length).length
  let row (label : String) (s : String) : String :=
    let shown := (counts s).map fun n =>
      let digits := toString n
      "".pushn ' ' (width - digits.length) ++ digits
    " ".intercalate shown ++ (if label.isEmpty then "" else " " ++ label) ++ "\n"
  let rows := texts.map fun t => row (if paths.isEmpty then "" else t.1) t.2
  let total := if 1 < texts.length then [row "total" all] else []
  put .outer "wc" (String.join (rows ++ total))
  if 0 < failures then setStatus 1

/-- The characters that a set of `tr` names. -/
def charSet : Nat → List Char → List Char
  | 0, _ => []
  | _, [] => []
  | fuel + 1, cs =>
    let range (a b : Char) : List Char :=
      (List.range (b.toNat + 1 - a.toNat)).map fun i => Char.ofNat (a.toNat + i)
    let text := String.ofList cs
    if text.startsWith "[:upper:]" then range 'A' 'Z' ++ charSet fuel (cs.drop 9)
    else if text.startsWith "[:lower:]" then range 'a' 'z' ++ charSet fuel (cs.drop 9)
    else if text.startsWith "[:digit:]" then range '0' '9' ++ charSet fuel (cs.drop 9)
    else if text.startsWith "[:alpha:]" then
      range 'A' 'Z' ++ range 'a' 'z' ++ charSet fuel (cs.drop 9)
    else if text.startsWith "[:alnum:]" then
      range '0' '9' ++ range 'A' 'Z' ++ range 'a' 'z' ++ charSet fuel (cs.drop 9)
    else if text.startsWith "[:space:]" then
      ['\t', '\n', '\x0b', '\x0c', '\r', ' '] ++ charSet fuel (cs.drop 9)
    else
      match cs with
      | '\\' :: rest =>
        match escape .direct false rest with
        | some ([c], rest) => c :: charSet fuel rest
        | _ => '\\' :: charSet fuel rest
      | a :: '-' :: b :: rest => range a b ++ charSet fuel rest
      | a :: rest => a :: charSet fuel rest
      | [] => []

/-- Leaves one of neighbouring equal characters that are in a set. -/
def squeeze (inSet : Char → Bool) : List Char → List Char
  | [] => []
  | c :: cs =>
    match squeeze inSet cs with
    | d :: ds => if c = d ∧ inSet c then d :: ds else c :: d :: ds
    | [] => [c]

/-- Replaces or deletes characters. -/
def tr (args : List String) : Run Unit :=
  let options := (args.takeWhile fun a => a.startsWith "-" && a ≠ "-").flatMap fun a =>
    a.toList.drop 1
  let sets := (args.dropWhile fun a => a.startsWith "-" && a ≠ "-").map fun a =>
    charSet (a.length + 1) a.toList
  let first := sets[0]?.getD []
  let second := sets[1]?
  let others := options.contains 'c' || options.contains 'C'
  let inFirst (c : Char) : Bool := first.contains c != others
  let change (c : Char) : Char :=
    match second with
    | none => c
    | some [] => c
    | some (d :: ds) =>
      if !inFirst c then c
      else if options.contains 'c' then (d :: ds).getLast (by simp)
      else ((d :: ds)[first.idxOf c]?).getD ((d :: ds).getLast (by simp))
  filter "tr" (fun s =>
    let cs := s.toList
    let cs := if options.contains 'd' then cs.filter fun c => !inFirst c else cs.map change
    String.ofList (if options.contains 's' then
      squeeze (match second with
        | some set => set.contains
        | none => inFirst) cs
      else cs)) []

/-- The number at the beginning of a line. -/
def leadingNumber (s : String) : Int :=
  match s.toList.dropWhile Char.isWhitespace with
  | '-' :: cs => -(((leadingDigits 10 30 cs).map fun r => (r.1 : Int)).getD 0)
  | cs => ((leadingDigits 10 30 cs).map fun r => (r.1 : Int)).getD 0

/-- Sorts lines. -/
def sort (args : List String) : Run Unit :=
  let options := (args.filter (·.startsWith "-")).flatMap fun a => a.toList.drop 1
  let paths := args.filter fun a => !a.startsWith "-"
  let before (a b : String) : Bool :=
    if options.contains 'n' then
      let (m, n) := (leadingNumber a, leadingNumber b)
      m < n || (m = n && decide (a ≤ b))
    else decide (a ≤ b)
  filter "sort" (fun s =>
    let lines := (Octets.lines s).1
    let sorted := lines.mergeSort fun a b =>
      if options.contains 'r' then before b a else before a b
    Octets.unlines (if options.contains 'u' then sorted.eraseDups else sorted)) paths

/-- Leaves one of neighbouring equal lines. -/
def uniq (args : List String) : Run Unit :=
  let paths := args.filter fun a => !a.startsWith "-"
  let groups (lines : List String) : List (Nat × String) :=
    lines.foldr (fun l acc => match acc with
      | (n, m) :: more => if l = m then (n + 1, m) :: more else (1, l) :: (n, m) :: more
      | [] => [(1, l)]) []
  let row (g : Nat × String) : String :=
    if args.contains "-c" then
      let digits := toString g.1
      "".pushn ' ' (7 - digits.length) ++ digits ++ " " ++ g.2
    else g.2
  filter "uniq" (fun s => Octets.unlines ((groups (Octets.lines s).1).map row)) paths

/-- Puts out its input and keeps it in files. -/
def tee (args : List String) : Run Unit := do
  let append := args.contains "-a"
  let text ← readAll
  let dir := (← get).dir
  put .outer "tee" text
  (args.filter (· ≠ "-a")).forM fun path => do
    match ← change fun t =>
        t.whole (t.write dir (Octets.toString path) append (Octets.toBytes text)) with
    | .ok () => pure ()
    | .error e => failingOn "tee" path e

/-! ## Programs that change files -/

/-- Does something to each of the files that are named, and tells what fails. -/
def eachFile (name : String) (describe : String → FileError → String)
    (f : FileTree → List String → String → FileTree × Except FileError Unit)
    (paths : List String) : Run Unit := do
  setStatus 0
  let dir := (← get).dir
  paths.forM fun path => do
    match ← change fun t => f t dir (Octets.toString path) with
    | .ok () => pure ()
    | .error e => failing .outer name (describe path e)

/-- Makes files. -/
def touch (args : List String) : Run Unit :=
  eachFile "touch" (fun p e => "cannot touch '" ++ p ++ "': " ++ e.reason)
    (fun t dir p => t.whole (if t.isDir dir p then .ok t else t.write dir p true []))
    (args.filter fun a => !a.startsWith "-")

/-- Makes directories. -/
def mkdir (args : List String) : Run Unit :=
  let parents := args.contains "-p"
  eachFile "mkdir" (fun p e => "cannot create directory '" ++ p ++ "': " ++ e.reason)
    (fun t dir p => if parents then t.tryMakeDirs dir p else t.whole (t.makeDir dir p))
    (args.filter fun a => !a.startsWith "-")

/-- Takes away files. -/
def rm (args : List String) : Run Unit :=
  let options := (args.filter (·.startsWith "-")).flatMap fun a => a.toList.drop 1
  let all := options.contains 'r' || options.contains 'R'
  eachFile "rm" (fun p e => "cannot remove '" ++ p ++ "': " ++ e.reason)
    (fun t dir p => t.whole <|
      if options.contains 'f' ∧ (t.find dir p).toOption.isNone then .ok t
      else if all then t.removeAll dir p
      else if t.isDir dir p then .error .isADirectory
      else t.remove dir p)
    (args.filter fun a => !a.startsWith "-")

/-- Takes away directories with nothing in them. -/
def rmdir (args : List String) : Run Unit :=
  eachFile "rmdir" (fun p e => "failed to remove '" ++ p ++ "': " ++ e.reason)
    (fun t dir p => t.whole <|
      match t.find dir p with
      | .ok (_, .directory) => t.remove dir p
      | .ok _ => .error .notADirectory
      | .error e => .error e) args

/-- Where a file goes that is put at a path: into it, if it is a directory. -/
def targetOf (t : FileTree) (dir : List String) (path target : String) : String :=
  if t.isDir dir target then Path.join target ((Path.names path).getLast?.getD "") else target

/-- Copies a file, or moves it. -/
def copy (name : String) (away : Bool) (args : List String) : Run Unit := do
  let paths := args.filter fun a => !a.startsWith "-"
  match paths.getLast? with
  | none => failing .outer name "missing file operand"
  | some target =>
    eachFile name (fun p e => "cannot stat '" ++ p ++ "': " ++ e.reason)
      (fun t dir p => t.whole <| do
        let bytes ← t.read dir p
        let t ← t.write dir (targetOf t dir p (Octets.toString target)) false bytes
        if away then t.remove dir p else .ok t) paths.dropLast

/-- Puts out the names of files. -/
def ls (args : List String) : Run Unit := do
  let s ← get
  let t ← files
  let paths := args.filter fun a => !a.startsWith "-"
  let listing (path : String) : Except FileError (List String) := do
    match ← t.find s.dir (Octets.toString path) with
    | (place, .directory) =>
      let names := t.entries.keys.filterMap fun p =>
        if p.length = place.length + 1 ∧ place.isPrefixOf p then p.getLast? else none
      return ((names.map Octets.ofString).mergeSort fun a b => decide (a ≤ b)).filter
        fun n => !n.startsWith "."
    | _ => return [path]
  setStatus 0
  (if paths.isEmpty then ["."] else paths).forM fun path => do
    match listing path with
    | .ok names =>
      let _ ← write 1 (Octets.unlines names)
    | .error e => failing .outer "ls" ("cannot access '" ++ path ++ "': " ++ e.reason) 2

/-! ## Other programs -/

/-- The duration of a decimal number of seconds, minutes, hours or days. -/
def interval? (s : String) : Option Duration :=
  let cs := s.toList
  let (cs, unit) := match cs.getLast? with
    | some 's' => (cs.dropLast, 1)
    | some 'm' => (cs.dropLast, 60)
    | some 'h' => (cs.dropLast, 3600)
    | some 'd' => (cs.dropLast, 86400)
    | _ => (cs, 1)
  let whole := cs.takeWhile Char.isDigit
  let places := match cs.drop whole.length with
    | '.' :: rest => some rest
    | [] => some []
    | _ => none
  match places with
  | some places =>
    if places.all Char.isDigit ∧ (whole ≠ [] ∨ places ≠ []) then
      let n := ((Sum.digits? 10 (whole ++ places)).getD 0) * 1000000000 / Nat.pow 10 places.length
      some (.ofNanos (n * unit))
    else none
  | none => none

/-- Sleeps. -/
def sleep (args : List String) : Run Unit := do
  match args with
  | [] => failing .outer "sleep" "missing operand\nTry 'sleep --help' for more information."
  | _ =>
    match args.find? fun a => (interval? a).isNone with
    | some a =>
      failing .outer "sleep" ("invalid time interval '" ++ a ++
        "'\nTry 'sleep --help' for more information.")
    | none =>
      pause (args.foldl (fun d a => d.add ((interval? a).getD .zero)) .zero)
      setStatus 0

/-- A path without its directories. -/
def basename (args : List String) : Run Unit :=
  match args with
  | path :: more =>
    let name := ((Path.names path).getLast?).getD "/"
    let ending := more.head?.getD ""
    put .outer "basename"
      ((if name.endsWith ending ∧ name ≠ ending then (name.dropEnd ending.length).toString
        else name) ++ "\n")
  | [] => failing .outer "basename" "missing operand\nTry 'basename --help' for more information."

/-- The directory of a path. -/
def dirname (args : List String) : Run Unit :=
  match args with
  | path :: _ =>
    let parent := match Path.parent? path with
      | some "" => "."
      | some p => p
      | none => if Path.isAbsolute path then "/" else "."
    put .outer "dirname" (parent ++ "\n")
  | [] => failing .outer "dirname" "missing operand\nTry 'dirname --help' for more information."

/-- Compares and computes. -/
def expr (args : List String) : Run Unit := do
  let show1 (s : String) : Run Unit := do
    put .outer "expr" (s ++ "\n")
    if s = "0" ∨ s = "" then setStatus 1
  match args with
  | [a] => show1 a
  | [a, op, b] =>
    match Condition.number a, Condition.number b, op with
    | .ok m, .ok n, "=" => show1 (toString (Sum.ofBool (m = n)))
    | _, _, "=" => show1 (toString (Sum.ofBool (a = b)))
    | .ok m, .ok n, op =>
      match Sum.operate op m n with
      | some k => show1 (toString k)
      | none => failing .outer "expr" "division by zero" 2
    | _, _, _ => failing .outer "expr" "non-integer argument" 2
  | _ => failing .outer "expr" "syntax error" 2

/-- Tells whether a condition holds. -/
def test (d : Dialect) (name : String) (args : List String) : Run Unit := do
  if name = "[" ∧ args.getLast? ≠ some "]" then
    failing d name (if d = .inner then "missing ]" else "missing ']'") 2
  else
    let args := if name = "[" then args.dropLast else args
    match Condition.holds (← files) (← get).dir args with
    | .ok b => setStatus (if b then 0 else 1)
    | .error message => failing d name message 2

/-- Puts out the directory. -/
def pwd (d : Dialect) : Run Unit := do
  put d "pwd" (Octets.ofString (pathOf (← get).dir) ++ "\n")

end Utility

open Utility in
/-- The program of a name. -/
def utility? (d : Dialect) (name : String) : Option (List String → Run Unit) :=
  match name with
  | "echo" => some (echo d)
  | "printf" => some (printf d)
  | "true" => some fun _ => Run.setStatus 0
  | "false" => some fun _ => Run.setStatus 1
  | "test" | "[" => some (test d name)
  | "pwd" => some fun _ => pwd d
  | "cat" => some fun args => filter "cat" id (args.filter (· ≠ "-u"))
  | "seq" => some seq
  | "yes" => some yes
  | "head" => some head
  | "tail" => some tail
  | "wc" => some wc
  | "tr" => some tr
  | "sort" => some sort
  | "uniq" => some uniq
  | "tee" => some tee
  | "rev" => some (filter "rev" fun s =>
      Octets.unlines ((Octets.lines s).1.map fun l => String.ofList l.toList.reverse))
  | "tac" => some (filter "tac" fun s => String.join (linesOf s).reverse)
  | "touch" => some touch
  | "mkdir" => some mkdir
  | "rm" => some rm
  | "rmdir" => some rmdir
  | "cp" => some (copy "cp" false)
  | "mv" => some (copy "mv" true)
  | "ls" => some ls
  | "sleep" => some sleep
  | "basename" => some basename
  | "dirname" => some dirname
  | "expr" => some expr
  | "sync" => some fun _ => Run.setStatus 0
  | _ => none

end Taskflow.Shell
