import Taskflow.Text.Utf8
set_option autoImplicit false

/-!
# Lines of a byte stream

A stream of bytes is cut behind newline bytes. Each piece is decoded on its own and loses its line
end, so a broken character in one line never reaches the next.

## Main definitions

* `LineReader` — the bytes of the line that is still open.
* `LineReader.feed`, `LineReader.finish` — a chunk of bytes arrives, the stream ends.
* `streamLines` — all lines of a stream that arrives at once.
-/

namespace Taskflow

/-- Drops the trailing newlines and carriage returns. -/
def trimLineEnd (cs : List Char) : List Char :=
  (cs.reverse.dropWhile fun c => c = '\n' ∨ c = '\r').reverse

/-- The text of one line, from its bytes and the newline that ends it, if there is one. -/
def lineText (bytes : List UInt8) : String :=
  String.ofList (trimLineEnd (Utf8.decodeLossy bytes))

/-- The bytes read since the last newline, latest first. -/
structure LineReader where
  pending : List UInt8 := []
  deriving Repr, DecidableEq

namespace LineReader

/-- One byte: a newline closes the open line. -/
def feedByte (r : LineReader) (b : UInt8) : LineReader × List String :=
  if b = 0x0A then (⟨[]⟩, [lineText (b :: r.pending).reverse]) else (⟨b :: r.pending⟩, [])

/-- A chunk of bytes: the reader after it, and the lines that it completes. -/
def feed (r : LineReader) : List UInt8 → LineReader × List String
  | [] => (r, [])
  | b :: bs =>
    let (r, lines) := r.feedByte b
    let (r, more) := feed r bs
    (r, lines ++ more)

/-- The end of the stream: a line without a newline counts if it holds a byte. -/
def finish (r : LineReader) : List String :=
  if r.pending.isEmpty then [] else [lineText r.pending.reverse]

end LineReader

/-- All lines of a stream. -/
def streamLines (bytes : List UInt8) : List String :=
  let (r, lines) := LineReader.feed {} bytes
  lines ++ r.finish

end Taskflow
