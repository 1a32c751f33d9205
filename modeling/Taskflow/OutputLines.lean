import Taskflow.Json.Value
import Taskflow.Text.Quoted
set_option autoImplicit false

/-!
# Buffers of output lines

Lines that are only ever appended. Full chunks of 128 lines are sealed and never touched again, so
that a snapshot of a long buffer shares them; the lines behind them stand in a tail.

## Main definitions

* `OutputLines` — the buffer, with `push`, `get?`, `last?`, `iterFrom` and `toList`.
* `OutputLines.lineAt` — the line at an index, or the text of what is wrong with the index.
* `OutputLines.sameAs`, `OutputLines.sameLines` — equality with a buffer and with a list.
-/

namespace Taskflow

/-- Sealed chunks, the lines behind them, and the number of all lines. -/
structure OutputLines where
  sealed : Array (Array String) := #[]
  tail : Array String := #[]
  size : Nat := 0
  deriving Repr, DecidableEq, Inhabited

namespace OutputLines

/-- The number of lines in a sealed chunk. -/
def chunkSize : Nat := 128

/-- The buffer without lines. -/
def empty : OutputLines := {}

/-- Appends a line; a tail that has become full is sealed. -/
def push (b : OutputLines) (line : String) : OutputLines :=
  let tail := b.tail.push line
  if tail.size = chunkSize then ⟨b.sealed.push tail, #[], b.size + 1⟩
  else ⟨b.sealed, tail, b.size + 1⟩

/-- The buffer of a list of lines. -/
def ofList (lines : List String) : OutputLines := lines.foldl push empty

/-- Whether there is no line. -/
def isEmpty (b : OutputLines) : Bool := b.size = 0

/-- The line at an index. -/
def get? (b : OutputLines) (i : Nat) : Option String :=
  if b.size ≤ i then none
  else
    match b.sealed[i / chunkSize]? with
    | some lines => lines[i % chunkSize]?
    | none => b.tail[i % chunkSize]?

/-- The text of an index that is too large. -/
def rangeMessage (b : OutputLines) (i : Nat) : String :=
  "line " ++ toString i ++ " out of range for " ++ toString b.size ++ " lines"

/-- The line at an index, or the text of what is wrong with the index. -/
def lineAt (b : OutputLines) (i : Nat) : Except String String :=
  match b.get? i with
  | some line => .ok line
  | none => .error (b.rangeMessage i)

/-- The last line. -/
def last? (b : OutputLines) : Option String := if b.size = 0 then none else b.get? (b.size - 1)

/-- How many lines have to be left out of those behind the chunks that lie wholly before
`start`. -/
def skipCount (b : OutputLines) (start : Nat) : Nat :=
  min start b.size - min (start / chunkSize) b.sealed.size * chunkSize

/-- The lines from an index on; chunks that lie wholly before it are not visited. -/
def iterFrom (b : OutputLines) (start : Nat) : List String :=
  (((b.sealed.toList.drop (start / chunkSize)).flatMap Array.toList) ++ b.tail.toList).drop
    (b.skipCount start)

/-- All lines. -/
def toList (b : OutputLines) : List String := b.iterFrom 0

/-- Whether two buffers hold the same lines. -/
def sameAs (a b : OutputLines) : Bool := a.size = b.size ∧ a.toList = b.toList

/-- Whether a buffer holds the lines of a list: there are as many, and those that stand in the same
place are equal. -/
def sameLines (b : OutputLines) (lines : List String) : Bool :=
  b.size = lines.length ∧ (b.toList.zip lines).all fun p => p.1 = p.2

/-- The lines between brackets, each one quoted. -/
def quoted (b : OutputLines) : String := Quoted.list b.toList

/-- As JSON, an array of strings. -/
def toJson (b : OutputLines) : Json := .arr (b.toList.map .str)

end OutputLines

end Taskflow
