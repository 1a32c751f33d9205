import Mathlib.Algebra.Order.Ring.Nat
import Mathlib.Data.List.Basic
import Mathlib.Tactic.Common
import Taskflow.Text.Utf8
set_option autoImplicit false

/-!
# What lossy decoding does

The byte machine is held to a description of lossy decoding that does not mention a machine: read
the bytes from the left; where they spell a character, that is the character; where they do not,
the longest stretch that still begins some character is broken off and becomes one replacement
character, and a byte that begins none becomes one of its own.

## Main definitions

* `Utf8.Begins`, `Utf8.Broken` — bytes that begin a character, and a stretch that is broken off.
* `Utf8.Decodes` — the characters that bytes are read as.
* `Utf8.Spells` — the bytes that complete a character at a machine.

## Main results

* `Utf8.spells_between_iff` — at a machine between characters, the bytes of the character do.
* `Utf8.decodes_iff` — the machine reads what the description says, and nothing else fits it.

## Design

An open character may still become any of a range of code points, and all of them are characters
(`Utf8.Decoder.Sound`): the bounds on the next byte are there to keep out the surrogates, the code
points that are too large and those that have a shorter spelling. This is why a byte in the bounds
never ends a stretch too late.
-/

namespace Taskflow.Utf8

/-- Bytes that begin some character, or spell it in full. -/
def Begins (piece : List UInt8) : Prop := ∃ c, piece <+: encodeChar c

/-- A stretch of bytes that spells no character and is broken off before `rest`: one that begins a
character and cannot be made longer, or a single byte. -/
structure Broken (piece rest : List UInt8) : Prop where
  ne_nil : piece ≠ []
  not_char : ∀ c, ¬ encodeChar c <+: piece ++ rest
  begins : Begins piece ∨ piece.length = 1
  longest : ∀ b more, rest = b :: more → ¬ Begins (piece ++ [b])

/-- What bytes are read as: the characters that they spell, and one replacement character for
every stretch that is broken off. -/
inductive Decodes : List UInt8 → List Char → Prop
  | nil : Decodes [] []
  | char (c : Char) {rest : List UInt8} {cs : List Char} (hrest : Decodes rest cs) :
    Decodes (encodeChar c ++ rest) (c :: cs)
  | broken {piece rest : List UInt8} {cs : List Char} (h : Broken piece rest)
    (hrest : Decodes rest cs) : Decodes (piece ++ rest) (replacement :: cs)

/-- The bytes that complete a character at a machine. -/
inductive Spells : Decoder → List UInt8 → Char → Prop
  | one {b : UInt8} {c : Char} (h : b.toNat < 0x80) (hc : c.toNat = b.toNat) :
    Spells .between [b] c
  | lead {b : UInt8} {owed bits : Nat} {low high : UInt8} {bytes : List UInt8} {c : Char}
    (h : start b = ⟨[], .inside owed low high bits⟩)
    (hrest : Spells (.inside owed low high bits) bytes c) : Spells .between (b :: bytes) c
  | more {owed bits : Nat} {low high b : UInt8} {bytes : List UInt8} {c : Char}
    (h : low.toNat ≤ b.toNat ∧ b.toNat ≤ high.toNat)
    (hrest : Spells (.inside owed 0x80 0xBF (bits * 64 + (b.toNat - 0x80))) bytes c) :
    Spells (.inside (owed + 1) low high bits) (b :: bytes) c
  | last {bits : Nat} {low high b : UInt8} {c : Char}
    (h : low.toNat ≤ b.toNat ∧ b.toNat ≤ high.toNat)
    (hc : c.toNat = bits * 64 + (b.toNat - 0x80)) : Spells (.inside 0 low high bits) [b] c

variable {b : UInt8} {bytes more piece rest suffix : List UInt8} {c : Char} {cs : List Char}
  {owed bits : Nat} {low high : UInt8} {d : Decoder}

/-! ### The bytes of a character -/

/-- A code point is a character unless it is a surrogate or too large. -/
lemma toNat_cases (c : Char) : c.toNat < 0xD800 ∨ 0xDFFF < c.toNat ∧ c.toNat < 0x110000 := c.valid

/-- The bytes of a character, as numbers. -/
lemma map_toNat_encodeChar (c : Char) : (encodeChar c).map UInt8.toNat =
    if c.toNat ≤ 0x7F then [c.toNat]
    else if c.toNat ≤ 0x7FF then [0xC0 + c.toNat / 64, 0x80 + c.toNat % 64]
    else if c.toNat ≤ 0xFFFF then
      [0xE0 + c.toNat / 4096, 0x80 + c.toNat / 64 % 64, 0x80 + c.toNat % 64]
    else
      [0xF0 + c.toNat / 262144, 0x80 + c.toNat / 4096 % 64, 0x80 + c.toNat / 64 % 64,
        0x80 + c.toNat % 64] := by
  have hc := toNat_cases c
  unfold encodeChar String.utf8EncodeChar
  simp only [show c.val.toNat = c.toNat from rfl]
  generalize c.toNat = v at hc ⊢
  split_ifs <;> simp <;> omega

/-- A character has bytes. -/
lemma encodeChar_ne_nil (c : Char) : encodeChar c ≠ [] := by
  intro h
  have hmap := map_toNat_encodeChar c
  rw [h] at hmap
  split_ifs at hmap <;> cases hmap

/-- The newline byte belongs to no other character than the newline. -/
lemma eq_newline_of_mem_encodeChar (h : 0x0A ∈ encodeChar c) : c = '\n' := by
  have hmem : 10 ∈ (encodeChar c).map UInt8.toNat := List.mem_map.2 ⟨0x0A, h, rfl⟩
  rw [map_toNat_encodeChar] at hmem
  refine Char.toNat_inj.1 (show c.toNat = 10 from ?_)
  split_ifs at hmem <;> simp at hmem <;> omega

/-! ### A byte where a character starts -/

/-- The five kinds of bytes: a character of its own, no part of any beginning, and the first byte
of two, of three and of four. -/
lemma start_eq (b : UInt8) :
    b.toNat < 0x80 ∧ start b = ⟨[Char.ofNat b.toNat], .between⟩ ∨
    (0x80 ≤ b.toNat ∧ b.toNat < 0xC2 ∨ 0xF5 ≤ b.toNat) ∧ start b = ⟨[replacement], .between⟩ ∨
    0xC2 ≤ b.toNat ∧ b.toNat < 0xE0 ∧ start b = ⟨[], .inside 0 0x80 0xBF (b.toNat - 0xC0)⟩ ∨
    0xE0 ≤ b.toNat ∧ b.toNat < 0xF0 ∧ start b = ⟨[], .inside 1
      (if b.toNat = 0xE0 then 0xA0 else 0x80) (if b.toNat = 0xED then 0x9F else 0xBF)
      (b.toNat - 0xE0)⟩ ∨
    0xF0 ≤ b.toNat ∧ b.toNat < 0xF5 ∧ start b = ⟨[], .inside 2
      (if b.toNat = 0xF0 then 0x90 else 0x80) (if b.toNat = 0xF4 then 0x8F else 0xBF)
      (b.toNat - 0xF0)⟩ := by
  obtain ⟨n, hn, rfl⟩ : ∃ n < 256, b = UInt8.ofNat n := ⟨b.toNat, b.toNat_lt, by simp⟩
  revert n
  decide +kernel

/-- The value of a byte that depends on a condition. -/
private lemma toNat_ite (p : Prop) [Decidable p] (a b : UInt8) :
    (if p then a else b).toNat = if p then a.toNat else b.toNat :=
  apply_ite UInt8.toNat p a b

/-! ### Spelling a character -/

/-- The bytes of a character spell it. -/
lemma spells_of_map_toNat (h : bytes.map UInt8.toNat = (encodeChar c).map UInt8.toNat) :
    Spells .between bytes c := by
  have hc := toNat_cases c
  rw [map_toNat_encodeChar] at h
  split_ifs at h with h₁ h₂ h₃
  · obtain ⟨b, rfl, hb⟩ := List.map_eq_singleton_iff.1 h
    exact .one (by omega) hb.symm
  · obtain ⟨b₀, bs, rfl, hb₀, h⟩ := List.map_eq_cons_iff.1 h
    obtain ⟨b₁, rfl, hb₁⟩ := List.map_eq_singleton_iff.1 h
    obtain hs | hs | ⟨-, -, hs⟩ | hs | hs := start_eq b₀ <;> try omega
    exact .lead hs (.last (by simp; omega) (by omega))
  · obtain ⟨b₀, bs, rfl, hb₀, h⟩ := List.map_eq_cons_iff.1 h
    obtain ⟨b₁, bs, rfl, hb₁, h⟩ := List.map_eq_cons_iff.1 h
    obtain ⟨b₂, rfl, hb₂⟩ := List.map_eq_singleton_iff.1 h
    obtain hs | hs | hs | ⟨-, -, hs⟩ | hs := start_eq b₀ <;> try omega
    refine .lead hs (.more ?_ (.last (by simp; omega) (by omega)))
    rw [toNat_ite, toNat_ite]
    simp
    split_ifs <;> omega
  · obtain ⟨b₀, bs, rfl, hb₀, h⟩ := List.map_eq_cons_iff.1 h
    obtain ⟨b₁, bs, rfl, hb₁, h⟩ := List.map_eq_cons_iff.1 h
    obtain ⟨b₂, bs, rfl, hb₂, h⟩ := List.map_eq_cons_iff.1 h
    obtain ⟨b₃, rfl, hb₃⟩ := List.map_eq_singleton_iff.1 h
    obtain hs | hs | hs | hs | ⟨-, -, hs⟩ := start_eq b₀ <;> try omega
    refine .lead hs (.more ?_ (.more (by simp; omega) (.last (by simp; omega) (by omega))))
    rw [toNat_ite, toNat_ite]
    simp
    split_ifs <;> omega

/-- Only the bytes of a character spell it. -/
lemma Spells.map_toNat (h : Spells .between bytes c) :
    bytes.map UInt8.toNat = (encodeChar c).map UInt8.toNat := by
  rw [map_toNat_encodeChar]
  cases h with
  | one h hc =>
    rw [if_pos (by omega)]
    simp [hc]
  | @lead b _ _ _ _ bytes _ h hrest =>
    obtain hs | hs | ⟨h₁, h₂, hs⟩ | ⟨h₁, h₂, hs⟩ | ⟨h₁, h₂, hs⟩ := start_eq b
    · rw [hs.2] at h
      cases h
    · rw [hs.2] at h
      cases h
    · rw [hs] at h
      cases h
      obtain - | - | - | ⟨h, hc⟩ := hrest
      simp at h
      rw [if_neg (by omega), if_pos (by omega)]
      simp
      omega
    · rw [hs] at h
      cases h
      obtain - | - | ⟨h, - | - | - | ⟨h', hc⟩⟩ := hrest
      rw [toNat_ite, toNat_ite] at h
      simp at h h'
      split_ifs at h <;>
      · rw [if_neg (by omega), if_neg (by omega), if_pos (by omega)]
        simp
        omega
    · rw [hs] at h
      cases h
      obtain - | - | ⟨h, - | - | ⟨h', - | - | - | ⟨h'', hc⟩⟩⟩ := hrest
      rw [toNat_ite, toNat_ite] at h
      simp at h h' h''
      split_ifs at h <;>
      · rw [if_neg (by omega), if_neg (by omega), if_neg (by omega)]
        simp
        omega

/-- **At a machine between characters, a character is spelled by its own bytes and no others.** -/
theorem spells_between_iff : Spells .between bytes c ↔ bytes = encodeChar c := by
  refine ⟨fun h => ?_, fun h => spells_of_map_toNat (by rw [h])⟩
  exact List.map_injective_iff.2 (fun _ _ => UInt8.toNat_inj.1) h.map_toNat

/-- Bytes are decoded one after the other. -/
lemma run_cons (d : Decoder) (b : UInt8) (bs : List UInt8) :
    run d (b :: bs) = (feed d b).emitted ++ run (feed d b).next bs := rfl

/-- A byte that is allowed continues a character. -/
lemma feed_inside_of_mem (h : low.toNat ≤ b.toNat ∧ b.toNat ≤ high.toNat) :
    feed (.inside owed low high bits) b = match owed with
      | 0 => ⟨[Char.ofNat (bits * 64 + (b.toNat - 0x80))], .between⟩
      | owed + 1 => ⟨[], .inside owed 0x80 0xBF (bits * 64 + (b.toNat - 0x80))⟩ :=
  if_pos (by rwa [UInt8.le_iff_toNat_le, UInt8.le_iff_toNat_le])

/-- A byte that is not allowed breaks a character, and may begin another one. -/
lemma feed_inside_of_not_mem (h : ¬ (low.toNat ≤ b.toNat ∧ b.toNat ≤ high.toNat)) :
    feed (.inside owed low high bits) b =
      { start b with emitted := replacement :: (start b).emitted } :=
  if_neg (by rwa [UInt8.le_iff_toNat_le, UInt8.le_iff_toNat_le])

/-- A character that is spelled comes out, and the machine is between characters. -/
lemma Spells.run_append (h : Spells d bytes c) (more : List UInt8) :
    run d (bytes ++ more) = c :: run .between more := by
  have hchar : ∀ {c : Char} {n : Nat}, c.toNat = n → Char.ofNat n = c := by
    rintro c _ rfl
    exact Char.ofNat_toNat c
  induction h with
  | @one b c h hc =>
    obtain ⟨-, hs⟩ | hs | hs | hs | hs := start_eq b <;> try omega
    rw [List.singleton_append, run_cons, feed, hs, hchar hc]
    rfl
  | lead h _ ih =>
    rw [List.cons_append, run_cons, feed, h]
    exact ih
  | more h _ ih =>
    rw [List.cons_append, run_cons, feed_inside_of_mem h]
    exact ih
  | last h hc =>
    rw [List.singleton_append, run_cons, feed_inside_of_mem h, ← hchar hc]
    rfl

/-! ### An open character -/

/-- Every code point that the open character can still become is a character. -/
def Decoder.Sound : Decoder → Prop
  | .between => True
  | .inside owed low high bits => ∀ n, (bits * 64 + (low.toNat - 0x80)) * 64 ^ owed ≤ n →
      n < (bits * 64 + (high.toNat - 0x80) + 1) * 64 ^ owed → n.isValidChar

/-- After a first byte a decoder is sound. -/
lemma sound_start (b : UInt8) : (start b).next.Sound := by
  obtain ⟨-, hs⟩ | ⟨-, hs⟩ | ⟨h₁, h₂, hs⟩ | ⟨h₁, h₂, hs⟩ | ⟨h₁, h₂, hs⟩ := start_eq b <;>
    rw [hs] <;> simp only [Decoder.Sound] <;> intro n hlow hhigh <;> rw [Nat.isValidChar]
  · simp at hlow hhigh
    omega
  · rw [toNat_ite] at hlow hhigh
    split_ifs at hlow hhigh <;> simp at hlow hhigh <;> omega
  · rw [toNat_ite] at hlow hhigh
    split_ifs at hlow hhigh <;> simp at hlow hhigh <;> omega

/-- After a byte in between a decoder is sound. -/
lemma sound_more (h : (Decoder.inside (owed + 1) low high bits).Sound)
    (hb : low.toNat ≤ b.toNat ∧ b.toNat ≤ high.toNat) :
    (Decoder.inside owed 0x80 0xBF (bits * 64 + (b.toNat - 0x80))).Sound := by
  intro n hlow hhigh
  refine h n (Nat.le_trans ?_ hlow) (Nat.lt_of_lt_of_le hhigh ?_)
  all_goals
    rw [Nat.pow_succ, Nat.mul_comm (64 ^ owed), ← Nat.mul_assoc]
    refine Nat.mul_le_mul_right _ ?_
    simp
    omega

/-- **An open character can be completed after every byte in the bounds**, with continuation bytes
that are all zeros.

**Proof sketch.** By induction on the number of bytes owed: after this one, the byte `0x80` is in
the bounds. -/
lemma exists_spells (h : (Decoder.inside owed low high bits).Sound)
    (hb : low.toNat ≤ b.toNat ∧ b.toNat ≤ high.toNat) :
    ∃ suffix c, Spells (.inside owed low high bits) (b :: suffix) c := by
  induction owed generalizing low high bits b with
  | zero =>
    have hvalid : (bits * 64 + (b.toNat - 0x80)).isValidChar :=
      h _ (by simp; omega) (by simp; omega)
    exact ⟨[], Char.ofNatAux _ hvalid, .last hb rfl⟩
  | succ owed ih =>
    obtain ⟨suffix, c, hspells⟩ := ih (b := 0x80) (sound_more h hb) (by simp)
    exact ⟨0x80 :: suffix, c, .more hb hspells⟩

/-- A part of a character is read in silence: the machine after it awaits the other part, and what
completes a character there completes one here. -/
lemma Spells.split (h : Spells d (piece ++ suffix) c) (hd : d.Sound) (hsuffix : suffix ≠ []) :
    ∃ d', d'.Sound ∧ Spells d' suffix c ∧ (∀ more, run d (piece ++ more) = run d' more) ∧
      ∀ other c', Spells d' other c' → Spells d (piece ++ other) c' := by
  induction piece generalizing d with
  | nil => exact ⟨d, hd, h, fun _ => rfl, fun _ _ => id⟩
  | cons b piece ih =>
    rw [List.cons_append] at h
    generalize hbytes : piece ++ suffix = bytes at h
    cases h with
    | one | last =>
      exact absurd (List.append_eq_nil_iff.1 hbytes).2 hsuffix
    | lead h hrest =>
      subst hbytes
      obtain ⟨d', hd', hspells, hrun, hall⟩ := ih hrest (by simpa [h] using sound_start b)
      refine ⟨d', hd', hspells, fun more => ?_,
        fun other c' hother => .lead h (hall other c' hother)⟩
      rw [List.cons_append, run_cons, feed, h]
      exact hrun more
    | more h hrest =>
      subst hbytes
      obtain ⟨d', hd', hspells, hrun, hall⟩ := ih hrest (sound_more hd h)
      refine ⟨d', hd', hspells, fun more => ?_,
        fun other c' hother => .more h (hall other c' hother)⟩
      rw [List.cons_append, run_cons, feed_inside_of_mem h]
      exact hrun more

/-! ### Stretches that are broken off -/

/-- A byte out of the bounds breaks the open character off, and so does the end. -/
lemma run_inside_of_not_mem (h : ∀ b more, rest = b :: more →
    ¬ (low.toNat ≤ b.toNat ∧ b.toNat ≤ high.toNat)) :
    run (.inside owed low high bits) rest = replacement :: run .between rest := by
  cases rest with
  | nil => rfl
  | cons b more =>
    rw [run_cons, feed_inside_of_not_mem (h b more rfl)]
    rfl

/-- A byte that begins no character becomes a replacement character. -/
lemma start_of_not_begins (h : ¬ Begins [b]) : start b = ⟨[replacement], .between⟩ := by
  have hbegins : ∀ bytes c, Spells .between (b :: bytes) c → False := fun bytes c hspells =>
    h ⟨c, by rw [← spells_between_iff.1 hspells]; exact ⟨bytes, rfl⟩⟩
  have hinside : ∀ owed low high bits, start b = ⟨[], .inside owed low high bits⟩ →
      low.toNat ≤ high.toNat → False := by
    intro owed low high bits hs hle
    obtain ⟨suffix, c, hspells⟩ := exists_spells (b := low)
      (show (Decoder.inside owed low high bits).Sound by simpa [hs] using sound_start b)
      ⟨Nat.le_refl _, hle⟩
    exact hbegins _ _ (.lead hs hspells)
  obtain ⟨hb, hs⟩ | ⟨-, hs⟩ | ⟨h₁, h₂, hs⟩ | ⟨h₁, h₂, hs⟩ | ⟨h₁, h₂, hs⟩ := start_eq b
  · have hvalid : b.toNat.isValidChar := Or.inl (by omega)
    exact (hbegins [] (Char.ofNatAux _ hvalid) (.one hb rfl)).elim
  · exact hs
  · exact (hinside _ _ _ _ hs (by simp)).elim
  · refine (hinside _ _ _ _ hs ?_).elim
    rw [toNat_ite, toNat_ite]
    split_ifs <;> simp
    omega
  · refine (hinside _ _ _ _ hs ?_).elim
    rw [toNat_ite, toNat_ite]
    split_ifs <;> simp
    omega

/-- A stretch that is broken off becomes one replacement character, and the machine is between
characters. -/
lemma Broken.run_append (h : Broken piece rest) :
    run .between (piece ++ rest) = replacement :: run .between rest := by
  by_cases hbegins : Begins piece
  · obtain ⟨c, suffix, hsuffix⟩ := hbegins
    have hne : suffix ≠ [] := by
      rintro rfl
      rw [List.append_nil] at hsuffix
      exact h.not_char c (hsuffix ▸ List.prefix_append piece rest)
    obtain ⟨d, hd, hspells, hrun, hall⟩ :=
      (spells_between_iff.2 hsuffix).split trivial hne
    -- An open character is awaited, as the stretch is neither empty nor a whole character.
    rw [hrun]
    cases d with
    | between =>
      rw [← spells_between_iff.1 hspells, List.append_left_eq_self] at hsuffix
      exact (h.ne_nil hsuffix).elim
    | inside owed low high bits =>
      refine run_inside_of_not_mem fun b more hrest hb => ?_
      obtain ⟨suffix', c', hspells'⟩ := exists_spells hd hb
      refine h.longest b more hrest ⟨c', suffix', ?_⟩
      rw [← spells_between_iff.1 (hall _ _ hspells'), List.append_assoc, List.singleton_append]
  · obtain ⟨b, rfl⟩ := List.length_eq_one_iff.1 (h.begins.resolve_left hbegins)
    rw [List.singleton_append, run_cons, feed, start_of_not_begins hbegins]
    rfl

/-! ### The whole input -/

/-- A beginning of a character can be made as long as the bytes allow. -/
lemma exists_longest (h : Begins piece) (rest : List UInt8) :
    ∃ stretch others, piece ++ rest = piece ++ stretch ++ others ∧ Begins (piece ++ stretch) ∧
      ∀ b more, others = b :: more → ¬ Begins (piece ++ stretch ++ [b]) := by
  induction rest generalizing piece with
  | nil =>
    refine ⟨[], [], by simp, by simpa using h, fun b more hmore => by cases hmore⟩
  | cons b rest ih =>
    by_cases hb : Begins (piece ++ [b])
    · obtain ⟨stretch, others, heq, hbegins, hlongest⟩ := ih hb
      refine ⟨b :: stretch, others, ?_, ?_, ?_⟩
      · simpa using heq
      · simpa using hbegins
      · simpa using hlongest
    · refine ⟨[], b :: rest, by simp, by simpa using h, ?_⟩
      rintro _ _ ⟨⟩
      simpa using hb

/-- Where no character is spelled, a stretch is broken off. -/
lemma exists_broken (h : ∀ c, ¬ encodeChar c <+: b :: bytes) :
    ∃ piece rest, b :: bytes = piece ++ rest ∧ Broken piece rest := by
  by_cases hb : Begins [b]
  · obtain ⟨stretch, others, heq, hbegins, hlongest⟩ := exists_longest hb bytes
    rw [List.singleton_append] at heq
    exact ⟨_, others, heq, by simp, heq ▸ h, .inl hbegins, hlongest⟩
  · refine ⟨[b], bytes, rfl, by simp, h, .inr rfl, ?_⟩
    rintro b' - - ⟨c, hc⟩
    exact hb ⟨c, (List.prefix_append [b] [b']).trans hc⟩

/-- Bytes can be read in some way. -/
lemma exists_decodes (bytes : List UInt8) : ∃ cs, Decodes bytes cs := by
  induction hn : bytes.length using Nat.strongRecOn generalizing bytes with
  | ind n ih =>
  cases bytes with
  | nil => exact ⟨[], .nil⟩
  | cons b bytes =>
    by_cases hchar : ∃ c, encodeChar c <+: b :: bytes
    · obtain ⟨c, rest, hrest⟩ := hchar
      have hlen := congrArg List.length hrest
      rw [List.length_append, hn] at hlen
      have hpos := List.length_pos_iff.2 (encodeChar_ne_nil c)
      obtain ⟨cs, hcs⟩ := ih rest.length (by omega) rest rfl
      exact ⟨c :: cs, hrest ▸ .char c hcs⟩
    · obtain ⟨piece, rest, heq, hbroken⟩ := exists_broken (not_exists.1 hchar)
      have hlen := congrArg List.length heq
      rw [List.length_append, hn] at hlen
      have hpos := List.length_pos_iff.2 hbroken.ne_nil
      obtain ⟨cs, hcs⟩ := ih rest.length (by omega) rest rfl
      exact ⟨replacement :: cs, heq ▸ .broken hbroken hcs⟩

/-- What bytes are read as is what the machine reads. -/
lemma Decodes.eq_decodeLossy (h : Decodes bytes cs) : cs = decodeLossy bytes := by
  induction h with
  | nil => rfl
  | char c _ ih =>
    rw [decodeLossy, (spells_between_iff.2 rfl).run_append, ih]
    rfl
  | broken h _ ih =>
    rw [decodeLossy, h.run_append, ih]
    rfl

/-- **The machine reads bytes as the description says, and there is no other way to read them.** -/
theorem decodes_iff : Decodes bytes cs ↔ cs = decodeLossy bytes := by
  refine ⟨Decodes.eq_decodeLossy, ?_⟩
  rintro rfl
  obtain ⟨cs, hcs⟩ := exists_decodes bytes
  rwa [← hcs.eq_decodeLossy]

end Taskflow.Utf8
