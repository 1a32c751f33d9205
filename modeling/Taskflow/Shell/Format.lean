import Taskflow.Shell.Arithmetic
import Taskflow.Shell.Octets
set_option autoImplicit false

/-!
# Formats

The formats of `printf`, and the escapes in them and in what `echo` puts out.

## Main definitions

* `Shell.unescape` — the text that a text with escapes stands for.
* `Shell.Directive`, `Shell.FormatPart` — a format is a list of parts.
* `Shell.FormatPart.ofChars` — reads a format.
* `Shell.formatted` — the format applied to arguments, again and again until none is left.
-/

namespace Taskflow.Shell

/-- Where up to three octal digits are read: behind the backslash, or behind a zero. -/
inductive OctalStyle where
  | direct
  | behindZero
  deriving Repr, DecidableEq, Inhabited

/-- The value of at most `limit` digits at the beginning of a text, and what follows them. -/
def leadingDigits (base limit : Nat) (cs : List Char) : Option (Nat × List Char) :=
  let isDigit (c : Char) : Bool := (Sum.digits? base [c]).isSome
  let digits := (cs.take limit).takeWhile isDigit
  (Sum.digits? base digits).map fun n => (n, cs.drop digits.length)

/-- What a single character means behind a backslash. -/
def simpleEscape? : Char → Option Char
  | 'a' => some '\x07'
  | 'b' => some '\x08'
  | 'f' => some '\x0c'
  | 'n' => some '\n'
  | 'r' => some '\r'
  | 't' => some '\t'
  | 'v' => some '\x0b'
  | '\\' => some '\\'
  | _ => none

/-- The character of an octal number. -/
def octalChar (n : Nat) : Char := Char.ofNat (n % 256)

/-- What the text behind a backslash stands for, and what follows it; `none` if nothing more is to
be put out. -/
def escape (style : OctalStyle) (hex : Bool) (cs : List Char) : Option (List Char × List Char) :=
  match cs with
  | [] => some (['\\'], [])
  | 'c' :: _ => if style = .behindZero then none else some (['\\'], cs)
  | c :: rest =>
    match simpleEscape? c with
    | some d => some ([d], rest)
    | none =>
      if c = '0' ∧ style = .behindZero then
        match leadingDigits 8 3 rest with
        | some (n, rest) => some ([octalChar n], rest)
        | none => some (['\x00'], rest)
      else if c = 'x' ∧ hex then
        match leadingDigits 16 2 rest with
        | some (n, rest) => some ([octalChar n], rest)
        | none => some (['\\'], cs)
      else
        match leadingDigits 8 3 cs with
        | some (n, rest) => some ([octalChar n], rest)
        | none => some (['\\'], cs)

/-- The text that a text with escapes stands for, and whether it ends everything. -/
def unescape (style : OctalStyle) (hex : Bool) : Nat → List Char → List Char × Bool
  | 0, _ => ([], false)
  | _, [] => ([], false)
  | fuel + 1, c :: cs =>
    if c = '\\' then
      match escape style hex cs with
      | none => ([], true)
      | some (text, rest) =>
        let (more, stops) := unescape style hex fuel rest
        (text ++ more, stops)
    else
      let (more, stops) := unescape style hex fuel cs
      (c :: more, stops)

/-- A width or a precision: a number, or the next argument. -/
inductive Extent where
  | number (n : Nat)
  | argument
  deriving Repr, DecidableEq, Inhabited

/-- How an argument is to be put out. -/
structure Directive where
  flags : List Char := []
  width : Option Extent := none
  precision : Option Extent := none
  conversion : Char
  deriving Repr, DecidableEq, Inhabited

/-- A part of a format. -/
inductive FormatPart where
  | text (s : List Char)
  | directive (d : Directive)
  /-- an unknown conversion -/
  | invalid (s : String)
  | stop
  deriving Repr, DecidableEq, Inhabited

namespace FormatPart

/-- Reads a width or a precision. -/
def extent? (cs : List Char) : Option Extent × List Char :=
  match cs with
  | '*' :: rest => (some .argument, rest)
  | _ =>
    match leadingDigits 10 9 cs with
    | some (n, rest) => (some (.number n), rest)
    | none => (none, cs)

/-- Reads a directive behind its percent sign. -/
def readDirective (cs : List Char) : FormatPart × List Char :=
  let isFlag (c : Char) : Bool := "-+ #0".toList.contains c
  let flags := cs.takeWhile isFlag
  let (width, rest) := extent? (cs.drop flags.length)
  let (precision, rest) := match rest with
    | '.' :: rest =>
      let (p, rest) := extent? rest
      (some (p.getD (.number 0)), rest)
    | _ => (none, rest)
  match rest with
  | c :: rest =>
    if "diouxXcsb".toList.contains c then (.directive ⟨flags, width, precision, c⟩, rest)
    else (.invalid (String.ofList ('%' :: cs.take (cs.length - rest.length))), rest)
  | [] => (.invalid (String.ofList ('%' :: cs)), [])

/-- Reads a format. -/
def ofChars (hex : Bool) : Nat → List Char → List FormatPart
  | 0, _ => []
  | _, [] => []
  | fuel + 1, c :: cs =>
    if c = '\\' then
      match escape .direct hex cs with
      | none => [.stop]
      | some (found, rest) => .text found :: ofChars hex fuel rest
    else if c = '%' then
      match cs with
      | '%' :: rest => .text ['%'] :: ofChars hex fuel rest
      | _ =>
        let (part, rest) := readDirective cs
        part :: ofChars hex fuel rest
    else .text [c] :: ofChars hex fuel cs

end FormatPart

/-- What has been put out so far, the arguments that are left, and the arguments that are not what
they should be, latest first. -/
structure Printing where
  output : List Char := []
  args : List String
  used : Bool := false
  problems : List String := []
  stopped : Bool := false
  deriving Repr, Inhabited

namespace Printing

/-- Takes the next argument; without one it is empty. -/
def take (p : Printing) : String × Printing :=
  match p.args with
  | a :: args => (a, { p with args, used := true })
  | [] => ("", { p with used := true })

/-- Appends text. -/
def put (p : Printing) (cs : List Char) : Printing := { p with output := p.output ++ cs }

/-- The number that an argument stands for; one that is not a number is a problem. -/
def number (p : Printing) (s : String) : Int × Printing :=
  match s.toList with
  | [] => (0, p)
  | '"' :: cs | '\'' :: cs => ((cs.head?.map fun c => (c.toNat : Int)).getD 0, p)
  | cs =>
    match Sum.integer? s with
    | some n =>
      let top : Int := 9223372036854775807
      (max (-top - 1) (min n 18446744073709551615), p)
    | none =>
      let (negative, digits) := match cs.dropWhile Char.isWhitespace with
        | '-' :: rest => (true, rest)
        | rest => (false, rest)
      match leadingDigits 10 19 digits with
      | some (n, _) =>
        (if negative then -(n : Int) else n,
          { p with problems := (s ++ ": not completely converted") :: p.problems })
      | none => (0, { p with problems := (s ++ ": expected numeric value") :: p.problems })

/-- A width or a precision. -/
def extent (p : Printing) : Option Extent → Option Int × Printing
  | none => (none, p)
  | some (.number n) => (some n, p)
  | some .argument =>
    let (a, p) := p.take
    let (n, p) := p.number a
    (some n, p)

/-- Text brought to a width. -/
def pad (flags : List Char) (width : Option Int) (cs : List Char) : List Char :=
  let w := width.getD 0
  let fill := List.replicate (w.natAbs - cs.length) ' '
  if flags.contains '-' ∨ w < 0 then cs ++ fill else fill ++ cs

/-- A number brought to a precision and a width. -/
def padNumber (flags : List Char) (width precision : Option Int) (sign digits : List Char) :
    List Char :=
  let least := (precision.getD 1).toNat
  let digits := if precision = some 0 ∧ digits = ['0'] then [] else digits
  let digits := List.replicate (least - digits.length) '0' ++ digits
  let w := width.getD 0
  if flags.contains '0' ∧ ¬ flags.contains '-' ∧ precision.isNone then
    sign ++ List.replicate (w.toNat - sign.length - digits.length) '0' ++ digits
  else pad flags width (sign ++ digits)

/-- Puts out a number. -/
def putNumber (p : Printing) (d : Directive) (width precision : Option Int) (n : Int) : Printing :=
  let bits := (n % 18446744073709551616).toNat
  let alternative := d.flags.contains '#' ∧ bits ≠ 0
  let (sign, digits) : List Char × List Char :=
    match d.conversion with
    | 'u' => ([], Nat.toDigits 10 bits)
    | 'o' => ([], (if alternative then ['0'] else []) ++ Nat.toDigits 8 bits)
    | 'x' => (if alternative then ['0', 'x'] else [], Nat.toDigits 16 bits)
    | 'X' =>
      (if alternative then ['0', 'X'] else [], (Nat.toDigits 16 bits).map Char.toUpper)
    | _ =>
      let n := min n 9223372036854775807
      (if n < 0 then ['-'] else if d.flags.contains '+' then ['+']
        else if d.flags.contains ' ' then [' '] else [], Nat.toDigits 10 n.natAbs)
  p.put (padNumber d.flags width precision sign digits)

/-- Puts out one argument. -/
def directive (p : Printing) (hex : Bool) (d : Directive) : Printing :=
  let (width, p) := p.extent d.width
  let (precision, p) := p.extent d.precision
  let (a, p) := p.take
  let cut (cs : List Char) : List Char := match precision with
    | some n => if n < 0 then cs else cs.take n.toNat
    | none => cs
  match d.conversion with
  | 's' => p.put (pad d.flags width (cut a.toList))
  | 'c' => p.put (pad d.flags width (a.toList.take 1))
  | 'b' =>
    let (text, stops) := unescape .behindZero hex (a.length + 1) a.toList
    { p.put (pad d.flags width (cut text)) with stopped := stops }
  | _ =>
    let (n, p) := p.number a
    p.putNumber d width precision n

/-- One pass over the parts of a format. -/
def pass (hex : Bool) : List FormatPart → Printing → Printing
  | [], p => p
  | part :: parts, p =>
    if p.stopped then p
    else
      match part with
      | .text cs => pass hex parts (p.put cs)
      | .directive d => pass hex parts (p.directive hex d)
      | .invalid s =>
        { p with stopped := true, problems := (s ++ ": invalid directive") :: p.problems }
      | .stop => { p with stopped := true }

/-- Passes over a format until no argument is left. -/
def passes (hex : Bool) (parts : List FormatPart) : Nat → Printing → Printing
  | 0, p => p
  | fuel + 1, p =>
    let p := pass hex parts { p with used := false }
    if p.stopped ∨ ¬ p.used ∨ p.args.isEmpty then p else passes hex parts fuel p

end Printing

/-- The format applied to arguments, and what was wrong with them; `hex` allows escapes with
hexadecimal digits. -/
def formatted (hex : Bool) (format : String) (args : List String) : String × List String :=
  let parts := FormatPart.ofChars hex (format.length + 1) format.toList
  let p := Printing.passes hex parts (args.length + 1) { args }
  (String.ofList p.output, p.problems.reverse)

end Taskflow.Shell
