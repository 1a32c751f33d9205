import Taskflow.Shell.Arithmetic
import Taskflow.Shell.Pattern
import Taskflow.Shell.Session
set_option autoImplicit false

/-!
# Expansion of words

Parameters, the output of commands and arithmetic are put in place; what came from outside of
quotes is split into fields; and fields with open patterns become the names of files.

## Main definitions

* `Shell.Atom` — a character of an expanded word, with what may still happen to it.
* `Shell.expandWord` — a word before it is split.
* `Shell.splitFields` — the fields of an expanded word.
* `Shell.fieldsOf`, `Shell.textOf`, `Shell.patternOf` — words as arguments, as one text, and as
  patterns.
-/

namespace Taskflow.Shell

/-- What may happen to a character of an expanded word. -/
inductive Origin where
  /-- it may be part of a pattern -/
  | written
  /-- nothing -/
  | quoted
  /-- it may be part of a pattern, or separate fields -/
  | expanded
  deriving Repr, DecidableEq, Inhabited

/-- A part of an expanded word. -/
inductive Atom where
  | char (c : Char) (origin : Origin)
  /-- a new field begins -/
  | boundary
  /-- there is a field, even if it is empty -/
  | presence
  deriving Repr, DecidableEq, Inhabited

/-- The characters of a text as atoms. -/
def atomsOf (origin : Origin) (s : String) : List Atom := s.toList.map (.char · origin)

/-- The text of atoms. -/
def textOfAtoms (atoms : List Atom) : String :=
  String.ofList (atoms.filterMap fun
    | .char c _ => some c
    | .boundary => some ' '
    | .presence => none)

/-- Atoms as a pattern. -/
def patternOfAtoms (atoms : List Atom) : Pattern :=
  let chars := atoms.filterMap fun
    | .char c origin => some (c, origin != .quoted)
    | _ => none
  Pattern.ofChars (chars.length + 1) chars

/-! ## Parameters -/

/-- The value of a parameter other than the list of all arguments. -/
def parameter? (s : Session) (name : String) : Option String :=
  match name with
  | "?" => some (toString s.status)
  | "#" => some (toString s.params.length)
  | "$" => some "4242"
  | "0" => some s.name
  | "-" => some (if s.stopOnFailure then "e" else "")
  | "!" => none
  | _ =>
    match name.toNat? with
    | some n => s.params[n - 1]?
    | none => s.vars.get? name

/-- The characters between the arguments where they are joined. -/
def joiner (s : Session) : String :=
  match s.vars.get? "IFS" with
  | none => " "
  | some ifs => String.ofList (ifs.toList.take 1)

/-- All arguments as atoms. -/
def allParams (s : Session) (quoted : Bool) (name : String) : List Atom :=
  if quoted ∧ name = "*" then atomsOf .quoted ((joiner s).intercalate s.params)
  else
    let one (p : String) : List Atom :=
      if quoted then .presence :: atomsOf .quoted p else atomsOf .expanded p
    [Atom.boundary].intercalate (s.params.map one)

/-- What the shell answers to a parameter without a value, if that is an error. -/
def refuseUnset (s : Session) (name : String) : Run Unit := do
  if s.refuseUnset then Run.abort (name ++ ": parameter not set")

/-- The value of an arithmetic expression, as it is put in place. -/
def evaluateSum (text : String) : Run String := do
  let s ← get
  let lookup (name : String) : Option Int :=
    match s.vars.get? name with
    | none => some 0
    | some "" => some 0
    | some v => Sum.integer? v
  match Sum.read text with
  | none => Run.abort ("arithmetic expression: expecting primary: \"" ++ text ++ "\"")
  | some e =>
    match Sum.evaluate lookup e [] with
    | none => Run.abort ("arithmetic expression: division by zero: \"" ++ text ++ "\"")
    | some (n, assigned) =>
      assigned.reverse.forM fun (name, n) => Run.setVariable name (toString n)
      return toString n

/-- A text without the newlines at its end. -/
def dropNewlines (s : String) : String :=
  String.ofList (s.toList.reverse.dropWhile (· = '\n')).reverse

/-! ## Words -/

mutual

/-- Expands a piece of a word; `run` carries out commands. -/
def expandPiece (run : Command → Run Unit) : Piece → Run (List Atom)
  | .text quoted s =>
    return if quoted then .presence :: atomsOf .quoted s else atomsOf .written s
  | .output quoted body => do
    let text ← Run.capture (run body)
    return atomsOf (if quoted then .quoted else .expanded) (dropNewlines text)
  | .number quoted expression => do
    let text ← evaluateSum (textOfAtoms (← expandWord run expression))
    return atomsOf (if quoted then .quoted else .expanded) text
  | .parameter quoted name use => do
    let s ← get
    let origin := if quoted then Origin.quoted else .expanded
    let isAll := name = "@" || name = "*"
    let value := if isAll then (if s.params.isEmpty then none else some (" ".intercalate s.params))
      else parameter? s name
    let atoms (v : String) : List Atom :=
      if isAll then allParams s quoted name else atomsOf origin v
    match use with
    | .value =>
      match value with
      | some v => return atoms v
      | none =>
        if !isAll then refuseUnset s name
        return []
    | .length =>
      match value with
      | some v => return atomsOf origin (toString (if isAll then s.params.length else v.length))
      | none =>
        refuseUnset s name
        return atomsOf origin "0"
    | .fallback kind orEmpty word =>
      let present := match value with
        | some v => !(orEmpty && v.isEmpty)
        | none => false
      match kind with
      | .use => if present then return atoms (value.getD "") else expandWord run word
      | .assign =>
        if present then return atoms (value.getD "")
        else
          let text := textOfAtoms (← expandWord run word)
          Run.setVariable name text
          return atomsOf origin text
      | .complain =>
        if present then return atoms (value.getD "")
        else
          let text := textOfAtoms (← expandWord run word)
          let text := if !text.isEmpty then text
            else if orEmpty then "parameter not set or null"
            else "parameter not set"
          Run.abort (name ++ ": " ++ text)
      | .replace => if present then expandWord run word else return []
    | .trimmed atEnd longest pattern =>
      let p := patternOfAtoms (← expandWord run pattern)
      match value with
      | some v => return atomsOf origin (String.ofList (p.trim atEnd longest v.toList))
      | none =>
        refuseUnset s name
        return []

/-- Expands the pieces of a word. -/
def expandWord (run : Command → Run Unit) : List Piece → Run (List Atom)
  | [] => return []
  | p :: ps => return (← expandPiece run p) ++ (← expandWord run ps)

end

/-- A field on its way: its characters and whether each may be part of a pattern. -/
abbrev Field := List (Char × Bool)

/-- Splits atoms into fields; `ifs` separates, and of it blanks count as one. `now` is the field
that is open, and `blank` is set behind blanks that have closed one. -/
def splitFields (ifs : List Char) : (now : Option Field) → (blank : Bool) → List Atom → List Field
  | now, _, [] => now.toList
  | now, _, .boundary :: rest => now.toList ++ splitFields ifs none false rest
  | now, _, .presence :: rest => splitFields ifs (some (now.getD [])) false rest
  | now, blank, .char c origin :: rest =>
    if origin = .expanded ∧ ifs.contains c then
      if c.isWhitespace then now.toList ++ splitFields ifs none (blank || now.isSome) rest
      else if blank ∧ now.isNone then splitFields ifs none false rest
      else now.getD [] :: splitFields ifs none false rest
    else splitFields ifs (some (now.getD [] ++ [(c, origin != .quoted)])) false rest

/-! ## Names of files -/

/-- The names in a directory, in order. -/
def namesIn (t : FileTree) (place : List String) : List String :=
  let names := t.entries.keys.filterMap fun p =>
    if p.length = place.length + 1 ∧ place.isPrefixOf p then p.getLast? else none
  names.mergeSort fun a b => decide (Octets.ofString a ≤ Octets.ofString b)

/-- Cuts a field at slashes. -/
def components : Field → List Field
  | [] => [[]]
  | (c, active) :: rest =>
    match components rest with
    | first :: more => if c = '/' then [] :: first :: more else ((c, active) :: first) :: more
    | [] => [[(c, active)]]

/-- The paths that match the components of a path below `sofar`, which is a path and its place. -/
def matchPaths (t : FileTree) : List Field → (String × List String) → List String
  | [], (path, _) => [path]
  | part :: more, (path, place) =>
    let text := String.ofList (part.map (·.1))
    let p := Pattern.ofChars (part.length + 1) part
    let into (name : String) : String × List String :=
      (path ++ name ++ (if more.isEmpty then "" else "/"),
        if name = "" ∨ name = "." then place else if name = ".." then place.dropLast
        else place ++ [Octets.toString name])
    if p.isOpen then
      ((namesIn t place).map Octets.ofString).flatMap fun name =>
        if p.accepts name.toList ∧ (name.startsWith "." → text.startsWith ".") ∧
            (more.isEmpty ∨ t.entry? (into name).2 = some .directory) then
          matchPaths t more (into name)
        else []
    else if more.isEmpty ∧ text ≠ "" ∧ (t.entry? (into text).2).isNone then []
    else matchPaths t more (into text)

/-- A field as arguments: the names of the files that it matches, or itself. -/
def expandPaths (t : FileTree) (dir : List String) (field : Field) : List String :=
  let text := String.ofList (field.map (·.1))
  if (Pattern.ofChars (field.length + 1) field).isOpen then
    let parts := components field
    let found := match parts with
      | [] :: rest => matchPaths t rest ("/", [])
      | _ => matchPaths t parts ("", dir)
    if found.isEmpty then [text] else found
  else [text]

/-- The characters that separate fields. -/
def separators (s : Session) : List Char :=
  match s.vars.get? "IFS" with
  | some ifs => ifs.toList
  | none => [' ', '\t', '\n']

/-- A word as arguments. -/
def fieldsOf (run : Command → Run Unit) (w : Word) : Run (List String) := do
  let w := match w with
    | [.text true "", .parameter true "@" use] => [.parameter true "@" use]
    | w => w
  let atoms ← expandWord run w
  let t ← Run.files
  let s ← get
  return (splitFields (separators s) none false atoms).flatMap (expandPaths t s.dir)

/-- Words as arguments. -/
def allFieldsOf (run : Command → Run Unit) : List Word → Run (List String)
  | [] => return []
  | w :: ws => return (← fieldsOf run w) ++ (← allFieldsOf run ws)

/-- A word as one text. -/
def textOf (run : Command → Run Unit) (w : Word) : Run String :=
  return textOfAtoms (← expandWord run w)

/-- A word as a pattern. -/
def patternOf (run : Command → Run Unit) (w : Word) : Run Pattern :=
  return patternOfAtoms (← expandWord run w)

end Taskflow.Shell
