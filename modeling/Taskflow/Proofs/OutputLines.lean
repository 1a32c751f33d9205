import Mathlib.Data.List.Induction
import Mathlib.Tactic.Lemma
import Taskflow.OutputLines
set_option autoImplicit false

/-!
# The lines of a buffer

A buffer of output lines holds exactly the lines that were appended to it, in their order: sealing
a full tail moves lines and neither loses nor repeats any.

## Main results

* `OutputLines.toList_push` — appending a line appends it to the list of all lines.
* `OutputLines.toList_ofList`, `OutputLines.size_ofList` — a buffer of a list holds that list.
* `OutputLines.Chunked.get?_eq` — looking a line up finds it in the list.
* `OutputLines.iterFrom_ofList` — the lines from an index on are those of the list behind it.

## Design

Going through the lines from an index on leaves out whole chunks. That this leaves out the right
lines needs sealed chunks that are full and a tail that is not (`OutputLines.Chunked`), which is
what appending keeps up.
-/

namespace Taskflow.OutputLines

/-- All lines are those of the sealed chunks, one after the other, and of the tail. -/
lemma toList_eq (b : OutputLines) :
    b.toList = b.sealed.toList.flatMap Array.toList ++ b.tail.toList := by
  simp [toList, iterFrom, skipCount]

/-- **Appending a line appends it to the list of all lines**, whether or not the tail is sealed. -/
@[simp] lemma toList_push (b : OutputLines) (line : String) :
    (b.push line).toList = b.toList ++ [line] := by
  simp only [push]
  split <;> simp [toList_eq]

/-- Appending a line makes a buffer longer by one. -/
@[simp] lemma size_push (b : OutputLines) (line : String) : (b.push line).size = b.size + 1 := by
  simp only [push]
  split <;> rfl

/-- A list with one more line makes a buffer with one more line. -/
@[simp] lemma ofList_concat (lines : List String) (line : String) :
    ofList (lines ++ [line]) = (ofList lines).push line := by
  simp [ofList]

/-- **A buffer that is filled from a list holds that list.** -/
@[simp] theorem toList_ofList (lines : List String) : (ofList lines).toList = lines := by
  induction lines using List.reverseRecOn with
  | nil => rfl
  | append_singleton lines line ih => rw [ofList_concat, toList_push, ih]

/-- A buffer that is filled from a list is as long as the list. -/
@[simp] theorem size_ofList (lines : List String) : (ofList lines).size = lines.length := by
  induction lines using List.reverseRecOn with
  | nil => rfl
  | append_singleton lines line ih => rw [ofList_concat, size_push, ih, List.length_append]; rfl

/-! ### Chunks -/

/-- Sealed chunks are full, the tail is not, and the size counts the lines of both. -/
structure Chunked (b : OutputLines) : Prop where
  sealed_full : ∀ chunk ∈ b.sealed.toList, chunk.toList.length = chunkSize
  tail_lt : b.tail.size < chunkSize
  size_eq : b.size = b.sealed.size * chunkSize + b.tail.size

/-- A buffer without lines has no chunks. -/
lemma chunked_empty : empty.Chunked where
  sealed_full := fun _ h => nomatch h
  tail_lt := by decide
  size_eq := rfl

/-- Appending seals a tail as soon as it is full. -/
lemma Chunked.push {b : OutputLines} (h : b.Chunked) (line : String) : (b.push line).Chunked := by
  have hpushed : (b.tail.push line).size = b.tail.size + 1 := Array.size_push _
  have hle := h.tail_lt
  have hsize := h.size_eq
  simp only [OutputLines.push]
  split
  next hseal =>
    refine ⟨fun chunk hchunk => ?_, chunked_empty.tail_lt, ?_⟩
    · rw [Array.toList_push, List.mem_append, List.mem_singleton] at hchunk
      rcases hchunk with hchunk | rfl
      · exact h.sealed_full chunk hchunk
      · rw [Array.length_toList, hseal]
    · simp only [Array.size_push, List.size_toArray, List.length_nil, Nat.add_mul]
      omega
  next hopen =>
    refine ⟨h.sealed_full, ?_, ?_⟩
    · simp only [hpushed] at hopen ⊢
      omega
    · simp only [hpushed]
      omega

/-- A buffer that is filled from a list has its chunks cut as they should be. -/
lemma chunked_ofList (lines : List String) : (ofList lines).Chunked := by
  induction lines using List.reverseRecOn with
  | nil => exact chunked_empty
  | append_singleton lines line ih => rw [ofList_concat]; exact ih.push line

/-- The lines of full chunks are so many times those of one. -/
lemma length_flatMap_chunks {chunks : List (Array String)}
    (h : ∀ chunk ∈ chunks, chunk.toList.length = chunkSize) :
    (chunks.flatMap Array.toList).length = chunks.length * chunkSize := by
  induction chunks with
  | nil => simp
  | cons chunk rest ih =>
    obtain ⟨hchunk, hrest⟩ := List.forall_mem_cons.1 h
    rw [List.flatMap_cons, List.length_append, hchunk, ih hrest, List.length_cons, Nat.succ_mul,
      Nat.add_comm]

/-- **The lines from an index on are the lines without the first so many.** -/
theorem Chunked.iterFrom_eq {b : OutputLines} (h : b.Chunked) (start : Nat) :
    b.iterFrom start = b.toList.drop start := by
  have hskip : start / chunkSize * chunkSize ≤ start := Nat.div_mul_le_self _ _
  rw [toList_eq, iterFrom, skipCount]
  generalize start / chunkSize = q at hskip ⊢
  let front := (b.sealed.toList.take q).flatMap Array.toList
  let back := (b.sealed.toList.drop q).flatMap Array.toList ++ b.tail.toList
  have hsplit : b.sealed.toList.flatMap Array.toList ++ b.tail.toList = front ++ back := by
    rw [← List.append_assoc, ← List.flatMap_append, List.take_append_drop]
  have hfront : front.length = min q b.sealed.size * chunkSize := by
    rw [length_flatMap_chunks fun chunk hchunk => h.sealed_full chunk (List.mem_of_mem_take hchunk),
      List.length_take, Array.length_toList]
  have hfront_le : front.length ≤ start :=
    hfront ▸ Nat.le_trans (Nat.mul_le_mul_right _ (Nat.min_le_left _ _)) hskip
  have hlength : front.length + back.length = b.size := by
    rw [← List.length_append, ← hsplit, List.length_append, length_flatMap_chunks h.sealed_full,
      Array.length_toList, Array.length_toList, h.size_eq]
  have hdrop : (front ++ back).drop start = back.drop (start - front.length) := by
    rw [List.drop_append, List.drop_eq_nil_of_le hfront_le, List.nil_append]
  rw [hsplit, hdrop, ← hfront]
  -- beyond the end it does not matter how many lines are left out
  rcases Nat.le_total start b.size with hle | hge
  · rw [Nat.min_eq_left hle]
  · change back.drop _ = back.drop _
    rw [List.drop_eq_nil_of_le (by omega), List.drop_eq_nil_of_le (by omega)]

/-! ### Single lines -/

/-- In the lines of full chunks, the line at an index is found by dividing the index. -/
lemma getElem?_flatMap_chunks {chunks : List (Array String)}
    (h : ∀ chunk ∈ chunks, chunk.toList.length = chunkSize) (i : Nat) :
    (chunks.flatMap Array.toList)[i]? = (chunks[i / chunkSize]?).bind (·[i % chunkSize]?) := by
  induction chunks generalizing i with
  | nil => simp
  | cons chunk rest ih =>
    obtain ⟨hchunk, hrest⟩ := List.forall_mem_cons.1 h
    rw [List.flatMap_cons]
    by_cases hi : i < chunkSize
    · rw [List.getElem?_append_left (by rw [hchunk]; exact hi), Nat.div_eq_of_lt hi,
        Nat.mod_eq_of_lt hi]
      simp
    · have hle : chunkSize ≤ i := Nat.le_of_not_lt hi
      rw [List.getElem?_append_right (by rw [hchunk]; exact hle), hchunk, ih hrest,
        Nat.mod_eq_sub_mod hle, Nat.div_eq_sub_div (by decide) hle, List.getElem?_cons_succ]

/-- The size of a buffer is the number of its lines. -/
lemma Chunked.length_toList {b : OutputLines} (h : b.Chunked) : b.toList.length = b.size := by
  rw [toList_eq, List.length_append, length_flatMap_chunks h.sealed_full, Array.length_toList,
    Array.length_toList, h.size_eq]

/-- **The line at an index is that of the list of all lines**, whether it stands in a chunk or in
the tail. -/
theorem Chunked.get?_eq {b : OutputLines} (h : b.Chunked) (i : Nat) : b.get? i = b.toList[i]? := by
  have hpos : 0 < chunkSize := by decide
  have hlength : (b.sealed.toList.flatMap Array.toList).length = b.sealed.size * chunkSize := by
    rw [length_flatMap_chunks h.sealed_full, Array.length_toList]
  have hlines : (b.sealed.toList.flatMap Array.toList)[i]? =
      (b.sealed[i / chunkSize]?).bind (·[i % chunkSize]?) := by
    rw [getElem?_flatMap_chunks h.sealed_full, Array.getElem?_toList]
  unfold get?
  split
  next hi => rw [List.getElem?_eq_none (h.length_toList ▸ hi)]
  next hi =>
    rw [toList_eq]
    split
    next lines hchunk =>
      have hlt : i < b.sealed.size * chunkSize :=
        (Nat.div_lt_iff_lt_mul hpos).1 (Array.getElem?_eq_some_iff.1 hchunk).1
      rw [List.getElem?_append_left (hlength ▸ hlt), hlines, hchunk, Option.bind_some]
    next hchunk =>
      have hge : b.sealed.size * chunkSize ≤ i :=
        (Nat.le_div_iff_mul_le hpos).1 (Array.getElem?_eq_none_iff.1 hchunk)
      have htail : i - b.sealed.size * chunkSize < chunkSize := by
        have hsize := h.size_eq
        have hlt := h.tail_lt
        omega
      have hoffset : i - b.sealed.size * chunkSize = i % chunkSize := by
        rw [Nat.mul_comm] at hge htail ⊢
        rw [← Nat.sub_mul_mod hge, Nat.mod_eq_of_lt htail]
      rw [List.getElem?_append_right (hlength ▸ hge), hlength, hoffset, Array.getElem?_toList]

/-- The last line is that of the list of all lines. -/
lemma Chunked.last?_eq {b : OutputLines} (h : b.Chunked) : b.last? = b.toList.getLast? := by
  rw [List.getLast?_eq_getElem?, h.length_toList, last?, h.get?_eq]
  split
  next hempty =>
    rw [← h.length_toList] at hempty
    rw [List.length_eq_zero_iff.1 hempty]
    rfl
  next => rfl

/-- Chunks that are left out lie before the index and within the buffer. -/
lemma Chunked.skipped_le {b : OutputLines} (h : b.Chunked) (start : Nat) :
    min (start / chunkSize) b.sealed.size * chunkSize ≤ min start b.size := by
  have hsize := h.size_eq
  have hstart : start / chunkSize * chunkSize ≤ start := Nat.div_mul_le_self _ _
  have hleft : min (start / chunkSize) b.sealed.size * chunkSize ≤ start :=
    Nat.le_trans (Nat.mul_le_mul_right _ (Nat.min_le_left _ _)) hstart
  have hright : min (start / chunkSize) b.sealed.size * chunkSize ≤ b.size := by
    have hle := Nat.mul_le_mul_right chunkSize (Nat.min_le_right (start / chunkSize) b.sealed.size)
    omega
  exact Nat.le_min.2 ⟨hleft, hright⟩

/-- **The lines of a buffer of a list from an index on** are those of the list behind it. -/
@[simp] theorem iterFrom_ofList (lines : List String) (start : Nat) :
    (ofList lines).iterFrom start = lines.drop start := by
  rw [(chunked_ofList lines).iterFrom_eq, toList_ofList]

end Taskflow.OutputLines
