import Taskflow.Command.Launch
import Taskflow.Proofs.Text.Lines
set_option autoImplicit false

/-!
# What a command puts out

A command writes bytes to two pipes, a stretch at a time and between other things that it does.
Each pipe has a reader of its own, so on each of its streams a command puts out the lines of all
the bytes that it writes there.

## Main definitions

* `Script.course` — what a script puts out and how it ends, given the files that it sees.
* `chunksOn`, `linesOn` — the bytes and the lines of one of the streams.

## Main results

* `Launch.course_lines` — each stream has the lines of its reader.
* `Launch.outputs_are_cut_into_lines` — what is written to a stream is cut into its lines, whatever
  the stretches are.
-/

namespace Taskflow

/-! ### The course of a script -/

namespace Script

variable {ω ε : Type}

/-- What a script puts out and how it ends, if it sees the files `answers` one after the other. -/
def course (answers : Nat → FileTree) : Script ω ε → List ω × ε
  | .finish e => ([], e)
  | .emit o next => (o :: (course answers next).1, (course answers next).2)
  | .sleep _ next => course answers (next ())
  | .trigger next => course answers next
  | .note _ next => course answers next
  | .files _ next => course (fun i => answers (i + 1)) (next (answers 0))

/-- What is emitted first comes first. -/
lemma course_emitAll (answers : Nat → FileTree) (outputs : List ω) (next : Script ω ε) :
    course answers (.emitAll outputs next) =
      (outputs ++ (course answers next).1, (course answers next).2) := by
  induction outputs with
  | nil => rfl
  | cons o outputs ih =>
    show (o :: (course answers (.emitAll outputs next)).1,
      (course answers (.emitAll outputs next)).2) = _
    rw [ih]
    rfl

end Script

/-! ### The streams of a command -/

/-- The pipe of a stream. -/
def Stream.pipe : Stream → Nat
  | .stdout => 0
  | .stderr => 1

/-- The stretches of bytes that are written to a stream. -/
def chunksOn (s : Stream) (writes : List Shell.Output) : List (List UInt8) :=
  writes.filterMap fun w => if w.1 = s.pipe then some w.2 else none

/-- The lines that are put out on a stream. -/
def linesOn (s : Stream) (lines : List (Stream × String)) : List String :=
  lines.filterMap fun l => if l.1 = s then some l.2 else none

/-- Lines of one stream stand before the others, on this stream only. -/
lemma linesOn_map_append (s s' : Stream) (found : List String) (lines : List (Stream × String)) :
    linesOn s (found.map (s', ·) ++ lines) =
      (if s' = s then found else []) ++ linesOn s lines := by
  rw [linesOn, List.filterMap_append, List.filterMap_map]
  split_ifs with h <;> simp [linesOn, h]

namespace Launch

/-- The reader of a stream. -/
def readerOf (out err : LineReader) : Stream → LineReader
  | .stdout => out
  | .stderr => err

/-- **Each stream has the lines of its reader**, and a command ends as its script does.

**Proof sketch.** By induction on the script, for all readers. A write reaches the reader of its
pipe and leaves the other one as it is; nothing else reaches a reader before the end. -/
lemma course_lines (script : Script Shell.Output Int) (out err : LineReader)
    (answers : Nat → FileTree) :
    ((lines out err script).course answers).2 = (script.course answers).2 ∧
      ∀ s, linesOn s ((lines out err script).course answers).1 =
        (readerOf out err s).linesOf (chunksOn s (script.course answers).1) := by
  induction script generalizing out err answers with
  | finish code =>
    rw [lines, Script.course_emitAll, Script.course_emitAll]
    refine ⟨rfl, fun s => ?_⟩
    rw [linesOn_map_append, linesOn_map_append]
    cases s <;> simp [linesOn, chunksOn, Script.course, readerOf, LineReader.linesOf]
  | emit write next ih =>
    obtain ⟨pipe, bytes⟩ := write
    rcases pipe with _ | _ | pipe
    case succ.succ =>
      refine ⟨(ih _ _ answers).1, fun s => ?_⟩
      show linesOn s ((lines out err next).course answers).1 = _
      rw [(ih _ _ answers).2]
      cases s <;> rfl
    -- each of the other two has a reader
    all_goals
      rw [lines, Script.course_emitAll]
      refine ⟨(ih _ _ answers).1, fun s => ?_⟩
      rw [linesOn_map_append, (ih _ _ answers).2]
      cases s <;> rfl
  | sleep d next ih => exact ih () out err answers
  | trigger next ih => exact ih out err answers
  | note n next ih => exact ih out err answers
  | files update next ih => exact ih (answers 0) out err fun i => answers (i + 1)

/-- **What is written to a stream is cut into its lines, whatever the stretches are**: at a reader
of one stream, and at a command that writes to both and does other things in between.

**Proof sketch.** What a command puts out on a stream are the lines of the reader of this stream
(`course_lines`, by induction on the script). The lines of a reader do not depend on the chunks in
which the bytes arrive (`LineReader.cutInto_linesOf`). -/
theorem outputs_are_cut_into_lines :
    (∀ chunks, CutInto chunks.flatten (LineReader.linesOf {} chunks)) ∧
      ∀ (script : Script Shell.Output Int) (answers : Nat → FileTree),
        ((lines {} {} script).course answers).2 = (script.course answers).2 ∧
          ∀ s, CutInto (chunksOn s (script.course answers).1).flatten
            (linesOn s ((lines {} {} script).course answers).1) := by
  refine ⟨LineReader.cutInto_linesOf, fun script answers => ?_⟩
  obtain ⟨hcode, hlines⟩ := course_lines script {} {} answers
  refine ⟨hcode, fun s => ?_⟩
  rw [hlines]
  cases s <;> exact LineReader.cutInto_linesOf _

end Launch

end Taskflow
