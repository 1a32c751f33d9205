import Mathlib.Data.List.DropRight
import Taskflow.Proofs.Text.Utf8
import Taskflow.Text.Lines
set_option autoImplicit false

/-!
# A stream is its text, cut into lines

The reader cuts the bytes first and decodes each line on its own. Lossy decoding gets along with
that: the newline byte is part of no other character, and it breaks off whatever is open before it.
So the lines are those of the text that the whole stream is decoded to, however the bytes arrive.

## Main definitions

* `pieces` — a list cut at a separator, with nothing after the last one.
* `textLines` — the lines of a text.
* `LineReader.linesOf` — the lines of a stream that arrives in chunks.
* `CutInto` — what is known of the lines of a stream.

## Main results

* `Utf8.decodeLossy_append_newline` — decoding a stream decodes what is before a newline, and what
  is behind it.
* `pieces_decodeLossy` — decoding and cutting commute.
* `lineText_append_newline` — a line has the same text if it is decoded with its newline.
* `LineReader.linesOf_eq_map` — the lines are the texts of the pieces of all bytes.
* `LineReader.cutInto_linesOf` — the lines do not depend on the chunks.
-/

namespace Taskflow

/-! ### Decoding at a newline -/

namespace Utf8

variable {bytes before rest piece : List UInt8} {cs ds : List Char} {c : Char}

/-- A newline is one byte. -/
lemma encodeChar_newline : encodeChar '\n' = [0x0A] := by decide

/-- A character does not reach from what is before a newline to the newline. -/
lemma prefix_of_prefix_append_newline (hne : before ≠ [])
    (h : encodeChar c <+: before ++ 0x0A :: rest) : encodeChar c <+: before := by
  obtain hle | ⟨t, ht⟩ := List.prefix_or_prefix_of_prefix h (List.prefix_append before _)
  · exact hle
  · rw [← ht, List.prefix_append_right_inj, List.prefix_cons_iff] at h
    obtain rfl | ⟨t, rfl, -⟩ := h
    · rw [List.append_nil] at ht
      exact ht ▸ List.prefix_rfl
    · have hc : c = '\n' := eq_newline_of_mem_encodeChar (by simp [← ht])
      rw [hc, encodeChar_newline, List.append_eq_cons_iff] at ht
      obtain ⟨hnil, -⟩ | ⟨t', -, ht'⟩ := ht
      · exact (hne hnil).elim
      · cases t' <;> cases ht'

/-- A newline goes on with nothing that is open. -/
lemma not_begins_append_newline (hne : piece ≠ []) : ¬ Begins (piece ++ [0x0A]) := by
  rintro ⟨c, t, ht⟩
  have hc : c = '\n' := eq_newline_of_mem_encodeChar (by simp [← ht])
  rw [hc, encodeChar_newline] at ht
  obtain ⟨b, piece, rfl⟩ := List.exists_cons_of_ne_nil hne
  simp at ht

/-- A stretch that is broken off stays so if a newline comes after what it was broken off by. -/
lemma Broken.append_newline (h : Broken piece before) (rest : List UInt8) :
    Broken piece (before ++ 0x0A :: rest) := by
  refine ⟨h.ne_nil, fun c hc => ?_, h.begins, fun b more heq => ?_⟩
  · rw [← List.append_assoc] at hc
    refine h.not_char c (prefix_of_prefix_append_newline ?_ hc)
    simp [h.ne_nil]
  · cases before with
    | nil =>
      obtain ⟨rfl, -⟩ := List.cons_eq_cons.1 heq
      exact not_begins_append_newline h.ne_nil
    | cons b' before =>
      obtain ⟨rfl, -⟩ := List.cons_eq_cons.1 heq
      exact h.longest b' before rfl

/-- What stands before a newline and what stands behind it are read apart. -/
lemma Decodes.append_newline (h : Decodes before cs) (hrest : Decodes rest ds) :
    Decodes (before ++ 0x0A :: rest) (cs ++ '\n' :: ds) := by
  induction h with
  | nil => simpa [encodeChar_newline] using Decodes.char '\n' hrest
  | char c _ ih =>
    rw [List.append_assoc]
    exact .char c ih
  | broken hbroken _ ih =>
    rw [List.append_assoc]
    exact .broken (hbroken.append_newline rest) ih

/-- **Decoding a stream decodes what is before a newline, and what is behind it.** -/
theorem decodeLossy_append_newline (before rest : List UInt8) :
    decodeLossy (before ++ 0x0A :: rest) = decodeLossy before ++ '\n' :: decodeLossy rest :=
  ((decodes_iff.2 rfl).append_newline (decodes_iff.2 rfl)).eq_decodeLossy.symm

/-- A character that is broken off by a newline, and a byte that begins none. -/
example : decodeLossy [0xE2, 0x82, 0x0A, 0xFF, 0x41] = ['\ufffd', '\n', '\ufffd', 'A'] := by decide

/-- Only a newline is read as a newline. -/
lemma Decodes.newline_mem (h : Decodes bytes cs) (hmem : '\n' ∈ cs) : 0x0A ∈ bytes := by
  induction h with
  | nil => cases hmem
  | char c _ ih =>
    obtain rfl | hmem := List.mem_cons.1 hmem
    · simp [encodeChar_newline]
    · exact List.mem_append_right _ (ih hmem)
  | broken _ _ ih =>
    obtain h | hmem := List.mem_cons.1 hmem
    · exact absurd h (by decide)
    · exact List.mem_append_right _ (ih hmem)

/-- Where no newline byte is, none is decoded. -/
lemma newline_not_mem_decodeLossy (h : 0x0A ∉ bytes) : '\n' ∉ decodeLossy bytes :=
  fun hmem => h ((decodes_iff.2 rfl : Decodes bytes _).newline_mem hmem)

/-- No bytes are read as nothing, and nothing else is. -/
lemma decodeLossy_eq_nil_iff : decodeLossy bytes = [] ↔ bytes = [] := by
  refine ⟨fun h => ?_, fun h => h ▸ rfl⟩
  have hdecodes : Decodes bytes [] := decodes_iff.2 h.symm
  cases hdecodes
  rfl

end Utf8

/-! ### Pieces -/

section Pieces

variable {α : Type} [DecidableEq α] {sep : α} {l before : List α}

/-- A list cut at every separator. What is behind the last one is a piece unless it is empty. -/
def pieces (sep : α) (l : List α) : List (List α) :=
  if (l.splitOn sep).getLast? = some [] then (l.splitOn sep).dropLast else l.splitOn sep

/-- Nothing has no pieces. -/
@[simp]
lemma pieces_nil (sep : α) : pieces sep [] = [] := rfl

/-- Without a separator there is one piece. -/
lemma pieces_of_not_mem (hne : l ≠ []) (h : sep ∉ l) : pieces sep l = [l] := by
  rw [pieces, List.splitOn_eq_singleton h, if_neg]
  simpa using hne

/-- What is before the first separator is the first piece. -/
lemma pieces_append_cons (h : sep ∉ before) (l : List α) :
    pieces sep (before ++ sep :: l) = before :: pieces sep l := by
  obtain ⟨first, others, heq⟩ := List.exists_cons_of_ne_nil (List.splitOn_ne_nil sep l)
  rw [pieces, pieces, List.splitOn_append_cons_self_of_not_mem h, heq, List.getLast?_cons_cons,
    List.dropLast_cons_cons]
  split_ifs <;> rfl

/-- A separator at the front ends an empty piece. -/
lemma pieces_cons (sep : α) (l : List α) : pieces sep (sep :: l) = [] :: pieces sep l :=
  pieces_append_cons List.not_mem_nil l

/-- A list is empty, or has no separator, or has a piece in front of its first separator. -/
@[elab_as_elim]
theorem byPieces {motive : List α → Prop} (sep : α) (l : List α) (nil : motive [])
    (last : ∀ l, l ≠ [] → sep ∉ l → motive l)
    (piece : ∀ before l, sep ∉ before → motive l → motive (before ++ sep :: l)) : motive l := by
  induction hn : l.length using Nat.strongRecOn generalizing l with
  | ind n ih =>
  by_cases hmem : sep ∈ l
  · obtain ⟨before, rest, rfl, hbefore⟩ := List.eq_append_cons_of_mem hmem
    rw [List.length_append, List.length_cons] at hn
    exact piece before rest hbefore (ih rest.length (by omega) rest rfl)
  · by_cases hne : l = []
    · exact hne ▸ nil
    · exact last l hne hmem

/-- There are as many pieces as separators, and one more if something is behind the last one. -/
lemma length_pieces (sep : α) (l : List α) :
    (pieces sep l).length = l.count sep + if l = [] ∨ l.getLast? = some sep then 0 else 1 := by
  induction l using byPieces sep with
  | nil => rfl
  | last l hne h =>
    rw [pieces_of_not_mem hne h, List.count_eq_zero_of_not_mem h, if_neg]
    · rfl
    · rintro (hnil | hlast)
      · exact hne hnil
      · exact h (List.mem_of_getLast? hlast)
  | piece before l h ih =>
    rw [pieces_append_cons h, List.length_cons, ih, List.count_append, List.count_cons_self,
      List.count_eq_zero_of_not_mem h]
    cases l with
    | nil => simp
    | cons a l => simp; omega

/-- A separator ends a piece, and the pieces behind it are those of the rest. -/
lemma pieces_append_append (before l : List α) :
    pieces sep (before ++ sep :: l) = pieces sep (before ++ [sep]) ++ pieces sep l := by
  induction before using byPieces sep with
  | nil =>
    rw [List.nil_append, List.nil_append, pieces_cons, pieces_cons, pieces_nil]
    rfl
  | last before _ h =>
    rw [pieces_append_cons h, pieces_append_cons h, pieces_nil]
    rfl
  | piece first before h ih =>
    rw [List.append_assoc, List.append_assoc, List.cons_append, List.cons_append,
      pieces_append_cons h, pieces_append_cons h, ih]
    rfl

/-- There is no separator in a piece. -/
lemma not_mem_of_mem_pieces (h : before ∈ pieces sep l) : sep ∉ before := by
  induction l using byPieces sep with
  | nil => cases h
  | last l hne hl =>
    rw [pieces_of_not_mem hne hl, List.mem_singleton] at h
    exact h ▸ hl
  | piece first l hfirst ih =>
    rw [pieces_append_cons hfirst, List.mem_cons] at h
    obtain rfl | h := h
    · exact hfirst
    · exact ih h

end Pieces

/-! ### The lines of a text -/

variable {bytes : List UInt8} {lines : List String}

/-- The lines of a text: its pieces, each without the carriage returns at its end. -/
def textLines (cs : List Char) : List String :=
  (pieces '\n' cs).map fun piece => String.ofList (piece.rdropWhile (· = '\r'))

/-- Decoding and cutting commute. -/
lemma pieces_decodeLossy (bytes : List UInt8) :
    pieces '\n' (Utf8.decodeLossy bytes) = (pieces 0x0A bytes).map Utf8.decodeLossy := by
  induction bytes using byPieces (0x0A : UInt8) with
  | nil => rfl
  | last bytes hne h =>
    rw [pieces_of_not_mem hne h, pieces_of_not_mem (mt Utf8.decodeLossy_eq_nil_iff.1 hne)
      (Utf8.newline_not_mem_decodeLossy h)]
    rfl
  | piece before bytes h ih =>
    rw [Utf8.decodeLossy_append_newline, pieces_append_cons h,
      pieces_append_cons (Utf8.newline_not_mem_decodeLossy h), ih]
    rfl

/-- Without a newline, only carriage returns are dropped at the end of a line. -/
lemma trimLineEnd_of_not_mem {cs : List Char} (h : '\n' ∉ cs) :
    trimLineEnd cs = cs.rdropWhile (· = '\r') := by
  show cs.rdropWhile (fun c => c = '\n' ∨ c = '\r') = _
  induction cs using List.reverseRecOn with
  | nil => rfl
  | append_singleton cs c ih =>
    rw [List.mem_append, List.mem_singleton, not_or] at h
    rw [List.rdropWhile_concat, List.rdropWhile_concat, ih h.1]
    simp [Ne.symm h.2]

/-- It makes no difference whether the newline is decoded with the bytes of its line. -/
lemma lineText_append_newline (bytes : List UInt8) :
    lineText (bytes ++ [0x0A]) = lineText bytes := by
  rw [lineText, lineText, Utf8.decodeLossy_append_newline]
  exact congrArg String.ofList (List.rdropWhile_concat_pos _ _ _ (by decide))

/-- The lines of the text of a stream are the texts of its pieces. -/
lemma textLines_decodeLossy (bytes : List UInt8) :
    textLines (Utf8.decodeLossy bytes) = (pieces 0x0A bytes).map lineText := by
  rw [textLines, pieces_decodeLossy, List.map_map]
  refine List.map_congr_left fun piece hpiece => ?_
  show String.ofList _ = String.ofList _
  rw [trimLineEnd_of_not_mem (Utf8.newline_not_mem_decodeLossy (not_mem_of_mem_pieces hpiece))]

/-! ### The lines of a stream -/

namespace LineReader

variable {r : LineReader}

/-- The lines of a stream that arrives in chunks. -/
def linesOf (r : LineReader) : List (List UInt8) → List String
  | [] => r.finish
  | chunk :: chunks => (r.feed chunk).2 ++ linesOf (r.feed chunk).1 chunks

/-- One byte of a chunk is read. -/
lemma linesOf_cons_cons (r : LineReader) (b : UInt8) (chunk : List UInt8)
    (chunks : List (List UInt8)) : linesOf r ((b :: chunk) :: chunks) =
      (r.feedByte b).2 ++ linesOf (r.feedByte b).1 (chunk :: chunks) :=
  List.append_assoc _ _ _

/-- **The lines are the texts of the pieces of all bytes**, those of the open line included.

**Proof sketch.** By induction on the chunks, and on the bytes of the first one. A newline makes
the open line a piece, and any other byte belongs to it. -/
lemma linesOf_eq_map (chunks : List (List UInt8)) (h : 0x0A ∉ r.pending) :
    r.linesOf chunks = (pieces 0x0A (r.pending.reverse ++ chunks.flatten)).map lineText := by
  induction chunks generalizing r with
  | nil =>
    rw [List.flatten_nil, List.append_nil, linesOf, finish]
    split_ifs with hempty
    · rw [List.isEmpty_iff.1 hempty]
      rfl
    · rw [pieces_of_not_mem (by simpa using hempty) (by simpa using h)]
      rfl
  | cons chunk chunks ih =>
    induction chunk generalizing r with
    | nil => exact ih h
    | cons b chunk ihchunk =>
      rw [linesOf_cons_cons, feedByte]
      split_ifs with hb
      · rw [ihchunk List.not_mem_nil, hb, List.reverse_cons, lineText_append_newline,
          List.flatten_cons, List.flatten_cons, List.cons_append, List.cons_append,
          pieces_append_cons (by simpa using h)]
        rfl
      · rw [ihchunk (by simpa using ⟨Ne.symm hb, h⟩)]
        simp

end LineReader

/-- What is known of the lines of a stream: they are those of the text that all its bytes are read
as; each is the text of one piece of the bytes and depends on no others, so that what stands on
both sides of a newline can be read apart; and there are as many as newlines, and one more if
something is behind the last newline. -/
structure CutInto (bytes : List UInt8) (lines : List String) : Prop where
  existsUnique_decodes : ∃! cs, Utf8.Decodes bytes cs
  eq_textLines : ∀ cs, Utf8.Decodes bytes cs → lines = textLines cs
  eq_map_pieces : lines = (pieces 0x0A bytes).map lineText
  apart : ∀ before rest, bytes = before ++ 0x0A :: rest →
    lines = textLines (Utf8.decodeLossy (before ++ [0x0A])) ++ textLines (Utf8.decodeLossy rest)
  length_eq : lines.length =
    bytes.count 0x0A + if bytes = [] ∨ bytes.getLast? = some 0x0A then 0 else 1

/-- The lines of the text of a stream are what its bytes are cut into. -/
lemma cutInto_textLines (bytes : List UInt8) :
    CutInto bytes (textLines (Utf8.decodeLossy bytes)) where
  existsUnique_decodes := ⟨_, Utf8.decodes_iff.2 rfl, fun _ => Utf8.decodes_iff.1⟩
  eq_textLines cs hcs := by rw [Utf8.decodes_iff.1 hcs]
  eq_map_pieces := textLines_decodeLossy bytes
  apart before rest heq := by
    rw [heq, textLines_decodeLossy, textLines_decodeLossy, textLines_decodeLossy,
      pieces_append_append, List.map_append]
  length_eq := by rw [textLines_decodeLossy, List.length_map, length_pieces]

/-- **The lines of a stream do not depend on the chunks in which it arrives.** -/
theorem LineReader.cutInto_linesOf (chunks : List (List UInt8)) :
    CutInto chunks.flatten (linesOf {} chunks) := by
  have heq : linesOf {} chunks = textLines (Utf8.decodeLossy chunks.flatten) := by
    rw [linesOf_eq_map chunks List.not_mem_nil, textLines_decodeLossy]
    rfl
  exact heq ▸ cutInto_textLines chunks.flatten

end Taskflow
