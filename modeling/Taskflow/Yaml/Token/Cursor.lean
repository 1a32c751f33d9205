set_option autoImplicit false

/-!
# Positions in a YAML text

What is left of a text, with the count of characters, lines and columns before it. A line ends with
a carriage return, a line feed, both together, or one of three further characters; the line and
paragraph separators keep their identity when lines are joined, the others count as line feeds.

## Main definitions

* `Cursor` — what is left, and where it stands.
* `Cursor.advance`, `Cursor.skipBreak`, `Cursor.skipWhile` — ways to move on.
* `isAllowed` — the characters that a text may hold.
-/

namespace Taskflow.Yaml

/-- The characters that a text may hold. -/
def isAllowed (c : Char) : Bool :=
  let n := c.toNat
  n = 0x9 ∨ n = 0xA ∨ n = 0xD ∨ (0x20 ≤ n ∧ n ≤ 0x7E) ∨ n = 0x85 ∨ (0xA0 ≤ n ∧ n ≤ 0xFFFD) ∨
    0x10000 ≤ n

/-- The mark that may stand at the beginning of a text. -/
def byteOrderMark : Char := '\ufeff'

/-- Spaces and tabs. -/
def isBlank (c : Char) : Bool := c = ' ' ∨ c = '\t'

/-- The characters that end a line. -/
def isBreak (c : Char) : Bool :=
  c = '\n' ∨ c = '\r' ∨ c = '\u0085' ∨ c = '\u2028' ∨ c = '\u2029'

/-- The characters of names. -/
def isWord (c : Char) : Bool := c.isAlphanum ∨ c = '_' ∨ c = '-'

/-- What is left of a text, and where it stands. -/
structure Cursor where
  rest : List Char
  index : Nat := 0
  line : Nat := 0
  column : Nat := 0
  deriving Repr, DecidableEq, Inhabited

namespace Cursor

/-- Whether nothing is left. -/
def atEnd (c : Cursor) : Bool := c.rest.isEmpty

/-- Whether the character `n` places ahead has a property. -/
def holdsAt (c : Cursor) (n : Nat) (p : Char → Bool) : Bool :=
  match c.rest[n]? with
  | some d => p d
  | none => false

/-- Whether the next character is the given one. -/
def at_ (c : Cursor) (d : Char) : Bool := c.holdsAt 0 (· = d)

/-- Whether a blank, a line end or the end of the text stands `n` places ahead. -/
def blankOrEndAt (c : Cursor) (n : Nat) : Bool :=
  match c.rest[n]? with
  | some d => isBlank d ∨ isBreak d
  | none => true

/-- Whether a line end or the end of the text comes next. -/
def breakOrEnd (c : Cursor) : Bool := c.atEnd ∨ c.holdsAt 0 isBreak

/-- Passes `n` characters of the line. -/
def advance (c : Cursor) (n : Nat) : Cursor :=
  { c with rest := c.rest.drop n, index := c.index + n, column := c.column + n }

/-- The end of the line that comes next, and how many characters it takes. -/
def break? : List Char → Option (Char × Nat)
  | '\r' :: '\n' :: _ => some ('\n', 2)
  | d :: _ =>
    if d = '\u2028' ∨ d = '\u2029' then some (d, 1) else if isBreak d then some ('\n', 1) else none
  | [] => none

/-- Passes the end of a line, if it comes next; what it stands for. -/
def takeBreak (c : Cursor) : List Char × Cursor :=
  match break? c.rest with
  | some (d, n) =>
    ([d], { rest := c.rest.drop n, index := c.index + n, line := c.line + 1, column := 0 })
  | none => ([], c)

/-- Passes the end of a line, if it comes next. -/
def skipBreak (c : Cursor) : Cursor := c.takeBreak.2

/-- Passes characters of the line as long as they have a property; they are returned. -/
def takeWhile (c : Cursor) (p : Char → Bool) : List Char × Cursor :=
  let taken := c.rest.takeWhile p
  (taken, c.advance taken.length)

/-- Passes characters of the line as long as they have a property. -/
def skipWhile (c : Cursor) (p : Char → Bool) : Cursor := (c.takeWhile p).2

/-- Passes the rest of the line, but not its end. -/
def skipLine (c : Cursor) : Cursor := c.skipWhile fun d => ¬ isBreak d

/-- Whether a line begins with one of the two marks between documents. -/
def atDocumentMark (c : Cursor) : Bool :=
  c.column = 0 ∧ c.blankOrEndAt 3 ∧
    (c.rest.take 3 = ['-', '-', '-'] ∨ c.rest.take 3 = ['.', '.', '.'])

/-- Blanks and a comment up to the end of the line, which is passed; anything else is refused. -/
def finishLine? (c : Cursor) : Option Cursor :=
  let c := c.skipWhile isBlank
  let c := if c.at_ '#' then c.skipLine else c
  if c.breakOrEnd then some c.skipBreak else none

end Cursor

end Taskflow.Yaml
