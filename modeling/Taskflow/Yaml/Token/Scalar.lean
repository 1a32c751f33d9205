import Taskflow.Json.Reader
import Taskflow.Yaml.Token
import Taskflow.Yaml.Token.Cursor
set_option autoImplicit false

/-!
# Reading scalars

The three ways to write a scalar: in quotes, as a block whose lines keep or lose their ends, and
plain. A single line end between two lines of text counts as a space; further ones count as they
are.

## Main definitions

* `Scalar.quoted?` — a scalar in single or double quotes.
* `Scalar.block?` — a literal or folded block.
* `Scalar.plain?` — a plain scalar.

Every reader is given a `limit` above the length of the whole text; no loop takes more turns.
-/

namespace Taskflow.Yaml.Scalar

/-! ## White space inside of scalars -/

/-- White space between pieces of text: the first line end and the further ones, or the blanks of a
single line. `broken` tells that there was a line end. -/
structure Gap where
  broken : Bool := false
  blanks : List Char := []
  first : List Char := []
  further : List Char := []
  deriving Repr, DecidableEq, Inhabited

namespace Gap

/-- What the white space stands for: a lone line feed is a space. -/
def text (g : Gap) : List Char :=
  if g.broken then
    if g.first = ['\n'] then (if g.further.isEmpty then [' '] else g.further)
    else g.first ++ g.further
  else g.blanks

/-- Reads white space; blanks after a line end do not count. A tab may stand before column
`margin` only if no line end comes before it. -/
def read? (margin : Nat) : Nat → Gap → Cursor → Option (Gap × Cursor)
  | 0, g, c => some (g, c)
  | fuel + 1, g, c =>
    match c.rest with
    | d :: _ =>
      if isBlank d then
        if g.broken ∧ c.column < margin ∧ d = '\t' then none
        else
          let g := if g.broken then g else { g with blanks := g.blanks ++ [d] }
          read? margin fuel g (c.advance 1)
      else if isBreak d then
        let (text, c) := c.takeBreak
        let g := if g.broken then { g with further := g.further ++ text }
          else { g with broken := true, blanks := [], first := text }
        read? margin fuel g c
      else some (g, c)
    | [] => some (g, c)

end Gap

/-! ## Quoted scalars -/

/-- The character behind a backslash that is written by a single letter. -/
def escape? (c : Char) : Option Char :=
  match c with
  | '0' => some '\x00'
  | 'a' => some '\x07'
  | 'b' => some '\x08'
  | 't' | '\t' => some '\t'
  | 'n' => some '\n'
  | 'v' => some '\x0b'
  | 'f' => some '\x0c'
  | 'r' => some '\r'
  | 'e' => some '\x1b'
  | ' ' => some ' '
  | '"' => some '"'
  | '/' => some '/'
  | '\\' => some '\\'
  | 'N' => some '\u0085'
  | '_' => some '\u00a0'
  | 'L' => some '\u2028'
  | 'P' => some '\u2029'
  | _ => none

/-- The number of hexadecimal digits behind a letter. -/
def escapeDigits? (c : Char) : Option Nat :=
  match c with
  | 'x' => some 2
  | 'u' => some 4
  | 'U' => some 8
  | _ => none

/-- The character with a number that is written in hexadecimal digits. -/
def codeChar? (digits : List Char) : Option Char := do
  let n ← digits.foldlM (fun n d => (Json.Reader.hexValue? d).map (16 * n + ·)) 0
  if (0xD800 ≤ n ∧ n ≤ 0xDFFF) ∨ 0x10FFFF < n then none else some (Char.ofNat n)

/-- An escape sequence from its backslash on. -/
def escapeSequence? (c : Cursor) : Option (Char × Cursor) := do
  let d ← c.rest[1]?
  match escapeDigits? d with
  | some n =>
    let digits := (c.rest.drop 2).take n
    if digits.length = n then some (← codeChar? digits, c.advance (n + 2)) else none
  | none => some (← escape? d, c.advance 2)

/-- Reads text up to a blank, a line end or the closing quote. A backslash at the end of a line
continues it. -/
def quotedWord? (single : Bool) : Nat → Array Char → Cursor → Option (Array Char × Bool × Cursor)
  | 0, _, _ => none
  | fuel + 1, text, c =>
    match c.rest with
    | [] => some (text, false, c)
    | d :: rest =>
      if isBlank d ∨ isBreak d then some (text, false, c)
      else if single then
        if d = '\'' then
          if rest.head? = some '\'' then quotedWord? single fuel (text.push '\'') (c.advance 2)
          else some (text, false, c)
        else quotedWord? single fuel (text.push d) (c.advance 1)
      else if d = '"' then some (text, false, c)
      else if d = '\\' then
        if c.holdsAt 1 isBreak then some (text, true, (c.advance 1).skipBreak)
        else do
          let (e, c) ← escapeSequence? c
          quotedWord? single fuel (text.push e) c
      else quotedWord? single fuel (text.push d) (c.advance 1)

/-- Reads words and gaps up to the closing quote. -/
def quotedText? (single : Bool) (limit : Nat) :
    Nat → Array Char → Cursor → Option (Array Char × Cursor)
  | 0, _, _ => none
  | fuel + 1, text, c =>
    if c.atDocumentMark ∨ c.atEnd then none
    else do
      let (text, continued, c) ← quotedWord? single limit text c
      if c.at_ (if single then '\'' else '"') then some (text, c.advance 1)
      else
        let (gap, c) ← Gap.read? 0 limit { broken := continued } c
        quotedText? single limit fuel (text ++ gap.text) c

/-- A scalar from its opening quote on. -/
def quoted? (limit : Nat) (single : Bool) (c : Cursor) : Option (Token × Cursor) := do
  let (text, c) ← quotedText? single limit limit #[] (c.advance 1)
  let style := if single then ScalarStyle.singleQuoted else .doubleQuoted
  some (.scalar (String.ofList text.toList) style, c)

/-! ## Plain scalars -/

/-- The characters that end plain text between brackets. -/
def isFlowMark (c : Char) : Bool := c = ',' ∨ c = '[' ∨ c = ']' ∨ c = '\x7b' ∨ c = '\x7d'

/-- Whether a colon comes next that may not stand in plain text between brackets. -/
def atBadColon (inFlow : Bool) (c : Cursor) : Bool :=
  inFlow ∧ c.at_ ':' ∧ c.holdsAt 1 fun d => isFlowMark d ∨ d = '?'

/-- Whether plain text ends here. -/
def atPlainEnd (inFlow : Bool) (c : Cursor) : Bool :=
  (c.at_ ':' ∧ c.blankOrEndAt 1) ∨ (inFlow ∧ c.holdsAt 0 isFlowMark)

/-- Reads plain text up to a blank, a line end or its end. -/
def plainWord? (inFlow : Bool) : Nat → Array Char → Cursor → Option (Array Char × Cursor)
  | 0, _, _ => none
  | fuel + 1, word, c =>
    match c.rest with
    | [] => some (word, c)
    | d :: _ =>
      if isBlank d ∨ isBreak d then some (word, c)
      else if atBadColon inFlow c then none
      else if atPlainEnd inFlow c then some (word, c)
      else plainWord? inFlow fuel (word.push d) (c.advance 1)

/-- Reads words and gaps; a gap counts only if a word follows. What is returned last tells whether
the scalar ends behind a line end. -/
def plainText? (inFlow : Bool) (margin limit : Nat) :
    Nat → Array Char → Gap → Cursor → Option (Array Char × Bool × Cursor)
  | 0, _, _, _ => none
  | fuel + 1, text, gap, c =>
    if c.atDocumentMark ∨ c.at_ '#' then some (text, gap.broken, c)
    else do
      let (word, c) ← plainWord? inFlow limit #[] c
      let (text, gap) :=
        if word.isEmpty then (text, gap) else (text ++ gap.text ++ word, ({} : Gap))
      if c.holdsAt 0 fun d => isBlank d ∨ isBreak d then
        let (gap, c) ← Gap.read? margin limit gap c
        if ¬ inFlow ∧ c.column < margin then some (text, gap.broken, c)
        else plainText? inFlow margin limit fuel text gap c
      else some (text, gap.broken, c)

/-- A plain scalar, whose lines have to begin at column `margin` or behind it outside of brackets;
whether it ends behind a line end is returned with it. -/
def plain? (limit : Nat) (inFlow : Bool) (margin : Nat) (c : Cursor) :
    Option (Token × Bool × Cursor) := do
  let (text, broken, c) ← plainText? inFlow margin limit limit #[] {} c
  some (.scalar (String.ofList text.toList) .plain, broken, c)

/-! ## Block scalars -/

/-- What happens to the line ends at the end of a block: the last one is kept, or none, or all. -/
inductive Chomping where
  | clip
  | strip
  | keep
  deriving Repr, DecidableEq, Inhabited

/-- The header of a block: how it ends, and how far it is indented beyond its surroundings, if that
is said. -/
def blockHeader? (c : Cursor) : Option (Chomping × Option Nat × Cursor) :=
  let chomping? (c : Cursor) : Option (Chomping × Cursor) :=
    if c.at_ '+' then some (.keep, c.advance 1)
    else if c.at_ '-' then some (.strip, c.advance 1)
    else none
  let digit? (c : Cursor) : Option (Nat × Cursor) :=
    match c.rest with
    | d :: _ => if d.isDigit then some (d.toNat - 48, c.advance 1) else none
    | [] => none
  let (chomping, indent, c) : Chomping × Option Nat × Cursor :=
    match chomping? c, digit? c with
    | some (chomping, c), _ =>
      match digit? c with
      | some (n, c) => (chomping, some n, c)
      | none => (chomping, none, c)
    | none, some (n, c) =>
      match chomping? c with
      | some (chomping, c) => (chomping, some n, c)
      | none => (.clip, some n, c)
    | none, none => (.clip, none, c)
  if indent = some 0 then none else (c.finishLine?).map fun c => (chomping, indent, c)

/-- Passes the indentation of lines and the ends of empty ones. An `indent` of zero is not known
yet, and any number of spaces is passed. Returns the line ends and the widest indentation. -/
def blockBreaks? (indent : Nat) :
    Nat → List Char → Nat → Cursor → Option (List Char × Nat × Cursor)
  | 0, _, _, _ => none
  | fuel + 1, breaks, widest, c =>
    let inMargin (c : Cursor) : Bool := indent = 0 ∨ c.column < indent
    let spaces := (c.rest.takeWhile (· = ' ')).length
    let c := c.advance (if indent = 0 then spaces else min spaces (indent - c.column))
    let widest := max widest c.column
    if inMargin c ∧ c.at_ '\t' then none
    else if c.holdsAt 0 isBreak then
      let (text, c) := c.takeBreak
      blockBreaks? indent fuel (breaks ++ text) widest c
    else some (breaks, widest, c)

/-- The text of a block that has been read so far: its text, the end of the latest line, the ends
of the empty lines after it, and whether that line began with a blank. -/
structure Block where
  text : Array Char := #[]
  lineEnd : List Char := []
  breaks : List Char := []
  blank : Bool := false
  deriving Repr, Inhabited

namespace Block

/-- Adds the ends of lines before another line: in a folded block a lone line feed between lines
that do not begin with a blank is a space. -/
def join (b : Block) (literal blank : Bool) : Array Char :=
  if ¬ literal ∧ b.lineEnd = ['\n'] ∧ ¬ b.blank ∧ ¬ blank then
    (if b.breaks.isEmpty then b.text.push ' ' else b.text) ++ b.breaks
  else b.text ++ b.lineEnd ++ b.breaks

/-- Reads the lines of a block. -/
def lines? (literal : Bool) (indent limit : Nat) : Nat → Block → Cursor → Option (Block × Cursor)
  | 0, _, _ => none
  | fuel + 1, b, c =>
    if c.column = indent ∧ ¬ c.atEnd then do
      let blank := c.holdsAt 0 isBlank
      let (line, c) := c.takeWhile fun d => ¬ isBreak d
      let (lineEnd, c) := c.takeBreak
      let text := b.join literal blank ++ line
      let (breaks, _, c) ← blockBreaks? indent limit [] 0 c
      lines? literal indent limit fuel ⟨text, lineEnd, breaks, blank⟩ c
    else some (b, c)

/-- The text of the whole block. -/
def finish (b : Block) (chomping : Chomping) : Array Char :=
  match chomping with
  | .strip => b.text
  | .clip => b.text ++ b.lineEnd
  | .keep => b.text ++ b.lineEnd ++ b.breaks

end Block

/-- A block from its first character on, inside of a collection indented by `outer`. -/
def block? (limit : Nat) (literal : Bool) (outer : Int) (c : Cursor) : Option (Token × Cursor) := do
  let (chomping, increment, c) ← blockHeader? (c.advance 1)
  let known := match increment with
    | some n => if 0 ≤ outer then (outer + n).toNat else n
    | none => 0
  let (breaks, widest, c) ← blockBreaks? known limit [] 0 c
  let indent := if known = 0 then max (max widest (outer + 1).toNat) 1 else known
  let (b, c) ← Block.lines? literal indent limit limit { breaks } c
  let style := if literal then ScalarStyle.literal else .folded
  some (.scalar (String.ofList (b.finish chomping).toList) style, c)

end Taskflow.Yaml.Scalar
