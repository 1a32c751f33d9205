import Mathlib.Data.List.Forall2
import Mathlib.Data.Option.Basic
import Taskflow.Proofs.OutputLines
set_option autoImplicit false

/-!
# Buffers that share their chunks

A clone of a buffer has a tail of its own, but refers to the same vector of sealed chunks. When a
chunk is sealed, it goes into that vector if no other buffer refers to it, and into a copy if one
does. So no buffer sees what is appended to another one, and each of them holds a plain list of
lines: all questions about it have the answers of the list.

## Main definitions

* `OutputLines.Holds` — a buffer answers as a list of lines does.
* `Shelf` — buffers that refer to shared vectors of chunks; `Shelf.view?` is what one of them shows.
* `Shelf.run`, `Shelf.contents` — operations carried out on buffers, and on plain lists.

## Main results

* `Shelf.view?_push_of_ne` — nobody else sees a line that is appended.
* `Shelf.buffers_hold_lists` — after any operations, every buffer holds its list.

## Design

`OutputLines` is what a single holder sees. On a shelf the chunks stand apart from the buffers, so
that the rule by which a vector is copied can be told; that every buffer refers to a vector that is
there (`Shelf.Valid`) is all that the rule needs.
-/

namespace Taskflow

namespace OutputLines

/-- A buffer answers all questions as a list of lines does, and its chunks are cut as they should
be. Leaving out chunks takes away no more than what is to be left out. -/
structure Holds (b : OutputLines) (lines : List String) : Prop where
  chunks_full : ∀ chunk ∈ b.sealed.toList, chunk.size = 128
  tail_lt : b.tail.size < 128
  size_eq_chunks : b.size = 128 * b.sealed.size + b.tail.size
  size_eq : b.size = lines.length
  isEmpty_eq : b.isEmpty = lines.isEmpty
  get?_eq : ∀ i, b.get? i = lines[i]?
  last?_eq : b.last? = lines.getLast?
  toList_eq : b.toList = lines
  iterFrom_eq : ∀ start, b.iterFrom start = lines.drop (min start lines.length)
  skipped_le : ∀ start, min (start / 128) b.sealed.size * 128 ≤ min start b.size
  lineAt_eq_ok : ∀ i line, b.lineAt i = .ok line ↔ lines[i]? = some line
  lineAt_eq_error : ∀ i message, b.lineAt i = .error message ↔ lines.length ≤ i ∧
    message = "line " ++ toString i ++ " out of range for " ++ toString lines.length ++ " lines"
  sameLines_iff : ∀ others, b.sameLines others = true ↔ lines = others

variable {b c : OutputLines} {lines others : List String}

/-- Lists of one length are equal if those elements are that stand in the same place. -/
lemma all_zip_eq_iff (h : lines.length = others.length) :
    ((lines.zip others).all fun p => p.1 = p.2) = true ↔ lines = others := by
  have hpairs : (∀ p ∈ lines.zip others, p.1 = p.2) ↔ List.Forall₂ (· = ·) lines others := by
    rw [List.forall₂_iff_zip, and_iff_right h]
    exact Prod.forall
  simp only [List.all_eq_true, decide_eq_true_eq, hpairs, List.forall₂_eq_eq_eq]

/-- A buffer holds the lines of a list exactly if the list of its lines is that list. -/
lemma sameLines_iff_toList_eq (hsize : b.size = b.toList.length) :
    b.sameLines others = true ↔ b.toList = others := by
  rw [sameLines, decide_eq_true_iff, hsize]
  refine ⟨fun ⟨hlength, hall⟩ => (all_zip_eq_iff hlength).1 hall, fun heq => ?_⟩
  have hlength : b.toList.length = others.length := by rw [heq]
  exact ⟨hlength, (all_zip_eq_iff hlength).2 heq⟩

/-- **A buffer whose chunks are cut as they should be holds the list of its lines.** -/
theorem Chunked.holds (h : b.Chunked) : b.Holds b.toList := by
  have hsize : b.size = b.toList.length := h.length_toList.symm
  refine
    { chunks_full := fun chunk hchunk => ?_
      tail_lt := h.tail_lt
      size_eq_chunks := ?_
      size_eq := hsize
      isEmpty_eq := ?_
      get?_eq := h.get?_eq
      last?_eq := h.last?_eq
      toList_eq := rfl
      iterFrom_eq := fun start => ?_
      skipped_le := h.skipped_le
      lineAt_eq_ok := fun i line => ?_
      lineAt_eq_error := fun i message => ?_
      sameLines_iff := fun others => sameLines_iff_toList_eq hsize }
  · rw [← Array.length_toList]
    exact h.sealed_full chunk hchunk
  · rw [h.size_eq, Nat.mul_comm]
    rfl
  · rw [Bool.eq_iff_iff, isEmpty, decide_eq_true_iff, hsize, List.length_eq_zero_iff,
      List.isEmpty_iff]
  · rw [h.iterFrom_eq]
    rcases Nat.le_total start b.toList.length with hle | hge
    · rw [Nat.min_eq_left hle]
    · rw [Nat.min_eq_right hge, List.drop_length, List.drop_eq_nil_of_le hge]
  · rw [lineAt, h.get?_eq]
    cases b.toList[i]? <;> simp
  · rw [lineAt, h.get?_eq, ← List.getElem?_eq_none_iff]
    cases b.toList[i]? with
    | none => simp [rangeMessage, hsize, eq_comm]
    | some line => simp

/-- Two buffers are the same exactly if their lists are. -/
lemma Holds.sameAs_iff (hb : b.Holds lines) (hc : c.Holds others) :
    b.sameAs c = true ↔ lines = others := by
  rw [sameAs, decide_eq_true_iff, hb.toList_eq, hc.toList_eq, hb.size_eq, hc.size_eq]
  exact and_iff_right_of_imp fun hlines => by rw [hlines]

end OutputLines

/-! ### The shelf -/

/-- A buffer on a shelf: the place of its sealed chunks, its tail, and the number of its lines. -/
structure Handle where
  place : Nat
  tail : Array String
  size : Nat
  deriving Repr, DecidableEq, Inhabited

/-- Vectors of sealed chunks, and the buffers that refer to them. -/
structure Shelf where
  vectors : Array (Array (Array String)) := #[]
  handles : Array Handle := #[]
  deriving Repr, DecidableEq, Inhabited

namespace Shelf

/-- What buffer `i` shows. -/
def view? (s : Shelf) (i : Nat) : Option OutputLines :=
  (s.handles[i]?).bind fun h => (s.vectors[h.place]?).map fun chunks => ⟨chunks, h.tail, h.size⟩

/-- Whether another buffer than `i` refers to the vector at a place. -/
def isShared (s : Shelf) (i place : Nat) : Bool :=
  (List.range s.handles.size).any fun k =>
    k ≠ i ∧ (s.handles[k]?).any fun (h : Handle) => h.place = place

/-- Buffer `i`, whose chunks stand at a place, seals another one. A vector that is shared is copied
before; the result is the new place of the chunks. -/
def sealChunk (s : Shelf) (i place : Nat) (chunk : Array String) :
    Array (Array (Array String)) × Nat :=
  if s.isShared i place then
    (s.vectors.push ((s.vectors.getD place #[]).push chunk), s.vectors.size)
  else (s.vectors.modify place (·.push chunk), place)

/-- Appends a line to buffer `i`. -/
def push (s : Shelf) (i : Nat) (line : String) : Shelf :=
  match s.handles[i]? with
  | none => s
  | some h =>
    let tail := h.tail.push line
    if tail.size = OutputLines.chunkSize then
      let (vectors, place) := s.sealChunk i h.place tail
      ⟨vectors, s.handles.setIfInBounds i ⟨place, #[], h.size + 1⟩⟩
    else ⟨s.vectors, s.handles.setIfInBounds i ⟨h.place, tail, h.size + 1⟩⟩

/-- A new buffer with the lines of a list. -/
def collect (s : Shelf) (lines : List String) : Shelf :=
  let b := OutputLines.ofList lines
  ⟨s.vectors.push b.sealed, s.handles.push ⟨s.vectors.size, b.tail, b.size⟩⟩

/-- A new buffer that is a clone of buffer `i`. -/
def clone (s : Shelf) (i : Nat) : Shelf :=
  match s.handles[i]? with
  | none => s
  | some h => { s with handles := s.handles.push h }

/-- What can be done with the buffers of a shelf. -/
inductive Operation where
  /-- a line is appended to buffer `i` -/
  | push (i : Nat) (line : String)
  /-- a new buffer is made of a list -/
  | collect (lines : List String)
  /-- a new buffer is made as a clone of buffer `i` -/
  | clone (i : Nat)
  deriving Repr, DecidableEq, Inhabited

/-- Carries out an operation. -/
def perform (s : Shelf) : Operation → Shelf
  | .push i line => s.push i line
  | .collect lines => s.collect lines
  | .clone i => s.clone i

/-- The shelf after some operations. -/
def run (operations : List Operation) : Shelf := operations.foldl perform {}

/-- Carries out an operation on plain lists. -/
def tell (lists : List (List String)) : Operation → List (List String)
  | .push i line => lists.modify i (· ++ [line])
  | .collect lines => lists ++ [lines]
  | .clone i => lists ++ (lists[i]?).toList

/-- The plain lists after some operations. -/
def contents (operations : List Operation) : List (List String) := operations.foldl tell []

/-- Every buffer refers to a vector that is there. -/
def Valid (s : Shelf) : Prop :=
  ∀ (i : Nat) (h : Handle), s.handles[i]? = some h → h.place < s.vectors.size

variable {s : Shelf} {h : Handle} {i k : Nat}

/-! ### What an operation does to what a buffer shows -/

/-- A place that no other buffer refers to. -/
lemma not_isShared_iff {place : Nat} : s.isShared i place = false ↔
    ∀ (k : Nat) (h : Handle), k ≠ i → s.handles[k]? = some h → h.place ≠ place := by
  rw [isShared, List.any_eq_false]
  constructor
  · intro hall k h hk hget hplace
    have hlt : k < s.handles.size := (Array.getElem?_eq_some_iff.1 hget).1
    exact hall k (List.mem_range.2 hlt) (by simp [hk, hget, hplace])
  · intro hall k _ htrue
    rw [decide_eq_true_iff, Option.any_eq_true_iff_get] at htrue
    obtain ⟨hk, hsome, hplace⟩ := htrue
    obtain ⟨h, hget⟩ := Option.isSome_iff_exists.1 hsome
    simp only [hget, Option.get_some, decide_eq_true_iff] at hplace
    exact hall k h hk hget hplace

/-- What a buffer shows is told by its handle. -/
lemma view?_of_handle (hget : s.handles[i]? = some h) :
    s.view? i = (s.vectors[h.place]?).map fun chunks => ⟨chunks, h.tail, h.size⟩ := by
  rw [view?, hget, Option.bind_some]

/-- A chunk that is sealed appears behind the chunks of its buffer. -/
lemma getElem?_sealChunk_self {place : Nat} (hplace : place < s.vectors.size)
    (chunk : Array String) : let sealed := s.sealChunk i place chunk
    sealed.1[sealed.2]? = (s.vectors[place]?).map (·.push chunk) := by
  intro sealed
  simp only [sealed, sealChunk]
  split
  · simp [hplace]
  · simp [Array.getElem?_modify]

/-- No other buffer sees a chunk that is sealed, for its vector is copied if it is shared. -/
lemma getElem?_sealChunk_of_ne (hs : s.Valid) (hk : k ≠ i) (hget : s.handles[k]? = some h)
    (place : Nat) (chunk : Array String) :
    (s.sealChunk i place chunk).1[h.place]? = s.vectors[h.place]? := by
  unfold sealChunk
  split
  next =>
    have hlt : h.place < s.vectors.size := hs k h hget
    simp only [Array.getElem?_push, if_neg (Nat.ne_of_lt hlt)]
  next hshared =>
    have hne : h.place ≠ place := not_isShared_iff.1 (Bool.not_eq_true _ ▸ hshared) k h hk hget
    simp only [Array.getElem?_modify, if_neg hne.symm]

/-- Sealing a chunk takes away no vector, and leads to one that is there. -/
lemma size_le_sealChunk (place : Nat) (chunk : Array String) :
    s.vectors.size ≤ (s.sealChunk i place chunk).1.size ∧
      (place < s.vectors.size → (s.sealChunk i place chunk).2 <
        (s.sealChunk i place chunk).1.size) := by
  unfold sealChunk
  split <;> simp

/-- **A line that is appended to a buffer stands behind its lines.** -/
lemma view?_push_self (hs : s.Valid) (line : String) :
    (s.push i line).view? i = (s.view? i).map (·.push line) := by
  unfold push
  cases hget : s.handles[i]? with
  | none => simp [view?, hget]
  | some h =>
    have hlt : i < s.handles.size := (Array.getElem?_eq_some_iff.1 hget).1
    rw [view?_of_handle hget]
    simp only [OutputLines.push]
    split
    next hfull =>
      rw [view?_of_handle (h := ⟨(s.sealChunk i h.place (h.tail.push line)).2, #[], h.size + 1⟩)
        (by simp [hlt]), getElem?_sealChunk_self (hs i h hget)]
      simp only [Option.map_map, Function.comp_def, if_pos hfull]
    next hfull =>
      rw [view?_of_handle (h := ⟨h.place, h.tail.push line, h.size + 1⟩) (by simp [hlt])]
      simp only [Option.map_map, Function.comp_def, if_neg hfull]

/-- **Nobody else sees a line that is appended to a buffer.** -/
theorem view?_push_of_ne (hs : s.Valid) (hk : k ≠ i) (line : String) :
    (s.push i line).view? k = s.view? k := by
  unfold push
  cases hi : s.handles[i]? with
  | none => rfl
  | some h =>
    have hsame : ∀ (vectors : Array (Array (Array String))) (h' : Handle),
        (∀ g, s.handles[k]? = some g → vectors[g.place]? = s.vectors[g.place]?) →
        (Shelf.mk vectors (s.handles.setIfInBounds i h')).view? k = s.view? k := by
      intro vectors h' hvectors
      rw [view?, view?, Array.getElem?_setIfInBounds_ne hk.symm]
      cases hget : s.handles[k]? with
      | none => rfl
      | some g => rw [Option.bind_some, Option.bind_some, hvectors g hget]
    simp only
    split
    · exact hsame _ _ fun g hget => getElem?_sealChunk_of_ne hs hk hget _ _
    · exact hsame _ _ fun g _ => rfl

/-- The vectors of the old buffers stay when a new one is made. -/
lemma view?_of_old (hs : s.Valid) (hk : k < s.handles.size) (vectors : Array (Array (Array String)))
    (h : Handle) (hvectors : ∀ place < s.vectors.size, vectors[place]? = s.vectors[place]?) :
    (Shelf.mk vectors (s.handles.push h)).view? k = s.view? k := by
  obtain ⟨g, hget⟩ : ∃ g, s.handles[k]? = some g := ⟨_, Array.getElem?_eq_getElem hk⟩
  have hpush : (s.handles.push h)[k]? = some g := by
    rw [Array.getElem?_push, if_neg (Nat.ne_of_lt hk), hget]
  rw [view?_of_handle hget, view?_of_handle (s := ⟨vectors, s.handles.push h⟩) hpush]
  show Option.map _ vectors[g.place]? = _
  rw [hvectors _ (hs k g hget)]

/-! ### Shelves and lists -/

/-- Every buffer of a shelf has the lines of the list with its number. -/
structure Agrees (s : Shelf) (lists : List (List String)) : Prop where
  valid : s.Valid
  size_eq : s.handles.size = lists.length
  shows : ∀ i, Option.Rel (fun b lines => b.Chunked ∧ b.toList = lines) (s.view? i) lists[i]?

namespace Agrees

variable {lists : List (List String)}

/-- An empty shelf holds no lists. -/
lemma empty : Agrees {} [] where
  valid := fun i h hget => by simp at hget
  size_eq := rfl
  shows := fun i => by simp [view?]

/-- Appending a line to a buffer appends it to its list. -/
lemma push (hs : s.Agrees lists) (i : Nat) (line : String) :
    (s.push i line).Agrees (lists.modify i (· ++ [line])) where
  valid := by
    intro k g hget
    unfold Shelf.push at hget ⊢
    cases hi : s.handles[i]? with
    | none => rw [hi] at hget; exact hs.valid k g hget
    | some h =>
      have hplace := hs.valid i h hi
      have hgrown := size_le_sealChunk (s := s) (i := i) h.place (h.tail.push line)
      simp only [hi] at hget ⊢
      by_cases hfull : (h.tail.push line).size = OutputLines.chunkSize
      · simp only [if_pos hfull] at hget ⊢
        rw [Array.getElem?_setIfInBounds] at hget
        split at hget
        · split at hget
          · cases hget; exact hgrown.2 hplace
          · cases hget
        · exact Nat.lt_of_lt_of_le (hs.valid k g hget) hgrown.1
      · simp only [if_neg hfull] at hget ⊢
        rw [Array.getElem?_setIfInBounds] at hget
        split at hget
        · split at hget
          · cases hget; exact hplace
          · cases hget
        · exact hs.valid k g hget
  size_eq := by
    rw [List.length_modify, ← hs.size_eq]
    unfold Shelf.push
    split
    · rfl
    · simp only
      split <;> simp
  shows := by
    intro k
    rw [List.getElem?_modify]
    by_cases hk : k = i
    · subst hk
      rw [view?_push_self hs.valid]
      simp only [if_true, Option.map_eq_map]
      have hshows := hs.shows k
      generalize s.view? k = b, lists[k]? = lines at hshows
      cases hshows with
      | none => exact .none
      | some h =>
        refine .some ⟨h.1.push line, ?_⟩
        rw [OutputLines.toList_push, h.2]
    · rw [view?_push_of_ne hs.valid hk]
      simp only [if_neg (Ne.symm hk), Option.map_eq_map, Option.map_id']
      exact hs.shows k

/-- A new buffer that shows a list, while all others stay as they are. -/
lemma concat (hs : s.Agrees lists) {vectors : Array (Array (Array String))} {h : Handle}
    {chunks : Array (Array String)} {lines : List String}
    (hsize : s.vectors.size ≤ vectors.size)
    (hvectors : ∀ place < s.vectors.size, vectors[place]? = s.vectors[place]?)
    (hplace : vectors[h.place]? = some chunks)
    (hchunked : OutputLines.Chunked ⟨chunks, h.tail, h.size⟩)
    (hlines : OutputLines.toList ⟨chunks, h.tail, h.size⟩ = lines) :
    Agrees ⟨vectors, s.handles.push h⟩ (lists ++ [lines]) where
  valid := by
    intro k g hget
    rw [Array.getElem?_push] at hget
    split at hget
    · cases hget
      exact (Array.getElem?_eq_some_iff.1 hplace).1
    · exact Nat.lt_of_lt_of_le (hs.valid k g hget) hsize
  size_eq := by rw [Array.size_push, List.length_append, hs.size_eq, List.length_singleton]
  shows := by
    intro k
    rcases Nat.lt_trichotomy k s.handles.size with hlt | rfl | hgt
    · rw [view?_of_old hs.valid hlt _ _ hvectors, List.getElem?_append_left (hs.size_eq ▸ hlt)]
      exact hs.shows k
    · have hnew : (s.handles.push h)[s.handles.size]? = some h := Array.getElem?_push_size
      rw [view?_of_handle (s := ⟨vectors, s.handles.push h⟩) hnew, hs.size_eq,
        List.getElem?_concat_length]
      show Option.Rel _ ((vectors[h.place]?).map _) _
      rw [hplace]
      exact .some ⟨hchunked, hlines⟩
    · have hnone : (s.handles.push h)[k]? = none := by
        rw [Array.getElem?_eq_none_iff, Array.size_push]
        omega
      have hover : (lists ++ [lines])[k]? = none := by
        rw [List.getElem?_eq_none_iff, List.length_append, List.length_singleton, ← hs.size_eq]
        omega
      rw [view?, hnone, hover]
      exact .none

/-- A buffer that is collected from lines holds them. -/
lemma collect (hs : s.Agrees lists) (lines : List String) :
    (s.collect lines).Agrees (lists ++ [lines]) := by
  refine hs.concat (by simp) (fun place hplace => ?_) Array.getElem?_push_size
    (OutputLines.chunked_ofList lines) (OutputLines.toList_ofList lines)
  rw [Array.getElem?_push, if_neg (Nat.ne_of_lt hplace)]

/-- A clone holds the same list. -/
lemma clone (hs : s.Agrees lists) (i : Nat) :
    (s.clone i).Agrees (lists ++ (lists[i]?).toList) := by
  have hshows := hs.shows i
  unfold Shelf.clone
  cases hget : s.handles[i]? with
  | none =>
    rw [view?, hget] at hshows
    cases hlist : lists[i]? with
    | none => simpa using hs
    | some lines => simp [hlist] at hshows
  | some h =>
    have hvector := Array.getElem?_eq_getElem (hs.valid i h hget)
    rw [view?_of_handle hget, hvector] at hshows
    cases hlist : lists[i]? with
    | none => simp [hlist] at hshows
    | some lines =>
      rw [hlist, Option.map_some, Option.rel_some_some] at hshows
      exact hs.concat (Nat.le_refl _) (fun _ _ => rfl) hvector hshows.1 hshows.2

/-- **An operation does to the buffers what it does to the lists.** -/
lemma perform (hs : s.Agrees lists) (o : Operation) : (s.perform o).Agrees (tell lists o) := by
  cases o with
  | push i line => exact hs.push i line
  | collect lines => exact hs.collect lines
  | clone i => exact hs.clone i

/-- After any operations, every buffer holds its list. -/
lemma foldl (hs : s.Agrees lists) (operations : List Operation) :
    (operations.foldl Shelf.perform s).Agrees (operations.foldl tell lists) := by
  induction operations generalizing s lists with
  | nil => exact hs
  | cons o rest ih => exact ih (hs.perform o)

end Agrees

/-- After any operations the buffers have the lines of the lists. -/
lemma agrees_run (operations : List Operation) : (run operations).Agrees (contents operations) :=
  Agrees.empty.foldl operations

/-- A buffer stays as it is, whatever is appended to another one. -/
lemma view?_foldl_push (hs : s.Valid) (hk : k ≠ i) {lists : List (List String)}
    (hagrees : s.Agrees lists) (lines : List String) :
    ((lines.map (.push i)).foldl perform s).view? k = s.view? k := by
  induction lines generalizing s lists with
  | nil => rfl
  | cons line rest ih =>
    have hnext := hagrees.push i line
    exact (ih hnext.valid hnext).trans (view?_push_of_ne hs hk line)

/-- The lines that are appended to a list stand behind it, in their order. -/
lemma getElem?_foldl_tell_push (lists : List (List String)) (i : Nat) (lines : List String) :
    ((lines.map (.push i)).foldl tell lists)[i]? = (lists[i]?).map (· ++ lines) := by
  induction lines generalizing lists with
  | nil => simp
  | cons line rest ih =>
    rw [List.map_cons, List.foldl_cons, ih, tell, List.getElem?_modify]
    simp only [if_true, Option.map_eq_map, Option.map_map, Function.comp_def, List.append_assoc,
      List.singleton_append]

/-- What agrees with lists answers as they do. -/
lemma Agrees.holds {lists : List (List String)} (hs : s.Agrees lists) (i : Nat) :
    Option.Rel OutputLines.Holds (s.view? i) lists[i]? := by
  have hshows := hs.shows i
  generalize s.view? i = b, lists[i]? = lines at hshows
  cases hshows with
  | none => exact .none
  | some h => exact .some (h.2 ▸ h.1.holds)

/-- Lines that are appended to a buffer after it was cloned are not in the clone, which is the last
one, and they are in the buffer. -/
lemma view?_clone_then_push {lists : List (List String)} (hs : s.Agrees lists) {b : OutputLines}
    (hb : s.view? i = some b) (appended : List String) :
    let after := (appended.map (.push i)).foldl perform (s.clone i)
    after.view? s.handles.size = some b ∧
      ∃ c, after.view? i = some c ∧ c.Holds (b.toList ++ appended) := by
  intro after
  obtain ⟨h, hget⟩ : ∃ h, s.handles[i]? = some h := by
    rw [view?] at hb
    cases hget : s.handles[i]? with
    | none => rw [hget] at hb; cases hb
    | some h => exact ⟨h, rfl⟩
  have hlt : i < s.handles.size := (Array.getElem?_eq_some_iff.1 hget).1
  have hagrees := hs.clone i
  constructor
  · have hclone : s.clone i = { s with handles := s.handles.push h } := by
      rw [Shelf.clone, hget]
    have hnew : (s.handles.push h)[s.handles.size]? = some h := Array.getElem?_push_size
    rw [view?_foldl_push hagrees.valid (Nat.ne_of_gt hlt) hagrees, hclone,
      view?_of_handle (s := { s with handles := s.handles.push h }) hnew]
    rw [view?_of_handle hget] at hb
    exact hb
  · have hfinal := (hagrees.foldl (appended.map (.push i))).shows i
    have hold := hs.shows i
    have hlist : i < lists.length := hs.size_eq ▸ hlt
    rw [getElem?_foldl_tell_push, List.getElem?_append_left hlist] at hfinal
    change Option.Rel _ (after.view? i) _ at hfinal
    rw [hb] at hold
    generalize lists[i]? = bLines, after.view? i = c at hold hfinal
    cases hold with
    | some hold =>
      cases hfinal with
      | @some c _ hfinal =>
        have hc : c.Holds c.toList := hfinal.1.holds
        rw [hfinal.2] at hc
        exact ⟨c, rfl, hold.2 ▸ hc⟩

/-- **Every buffer holds its list.** After any operations, and whichever buffers are clones of
others and share chunks with them:
* each buffer answers all questions as the list of its lines does;
* two buffers are the same exactly if their lists are;
* a clone shows what its original showed, whatever is then appended to the original, and the
  original holds that as well.

**Proof sketch.** By induction on the operations (`agrees_run`): every buffer refers to a vector
that is there, its chunks are cut as they should be, and its lines are its list. Appending keeps
this up, because a chunk that is sealed goes into a vector to which no other buffer refers, or into
a copy of it. A buffer whose chunks are cut as they should be answers as its list does
(`Chunked.holds`). -/
theorem buffers_hold_lists (operations : List Operation) :
    let s := run operations
    let lists := contents operations
    (∀ i, Option.Rel OutputLines.Holds (s.view? i) lists[i]?) ∧
    (∀ i k b c, s.view? i = some b → s.view? k = some c →
      (b.sameAs c = true ↔ lists[i]? = lists[k]?)) ∧
    ∀ i b, s.view? i = some b → ∀ lines,
      let after := run (operations ++ .clone i :: lines.map (.push i))
      after.view? s.handles.size = some b ∧
        ∃ c, after.view? i = some c ∧ c.Holds (b.toList ++ lines) := by
  intro s lists
  have hs : s.Agrees lists := agrees_run operations
  refine ⟨hs.holds, fun i k b c hb hc => ?_, ?_⟩
  · have hi := hs.holds i
    have hk := hs.holds k
    rw [hb] at hi
    rw [hc] at hk
    generalize lists[i]? = bLines, lists[k]? = cLines at hi hk
    cases hi with
    | some hi =>
      cases hk with
      | some hk => rw [hi.sameAs_iff hk, Option.some_inj]
  · intro i b hb appended after
    have hafter : after = (appended.map (.push i)).foldl perform (s.clone i) := by
      simp only [after, run, List.foldl_append, List.foldl_cons]
      rfl
    rw [hafter]
    exact view?_clone_then_push hs hb appended

/-- A clone whose original seals the chunk that its tail was the beginning of. -/
theorem clone_survives_sealing :
    let lines := List.replicate 127 "a"
    let s := run [.collect lines]
    let after := run [.collect lines, .clone 0, .push 0 "b"]
    s.view? 0 = some (OutputLines.ofList lines) ∧
      after.view? 1 = some (OutputLines.ofList lines) ∧
      ∃ c, after.view? 0 = some c ∧ c.Holds (lines ++ ["b"]) := by
  intro lines s after
  have hb : s.view? 0 = some (OutputLines.ofList lines) := by decide +kernel
  have h := (buffers_hold_lists [.collect lines]).2.2 0 _ hb ["b"]
  rw [OutputLines.toList_ofList] at h
  exact ⟨hb, h.1, h.2⟩

end Shelf

end Taskflow
