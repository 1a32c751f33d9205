import Mathlib.Tactic.Common
import Taskflow.Json.Reader
set_option autoImplicit false

/-!
# What is written is read

A reader that is given the text of a value, and something else behind it, takes the value and
leaves the rest, whatever blanks the layout has put between the parts of the value.

## Main definitions

* `Json.Layout.IsBlank` — a layout that puts nothing but blanks between the parts of a value.
* `Json.Reader.EndsNumber` — what cannot be taken for the next character of a number.

## Main results

* `Json.isBlank_compact`, `Json.isBlank_pretty` — both layouts are of that kind.
* `Json.Reader.string?_quote`, `Json.Reader.number?_toString` — strings and integers.
* `Json.Reader.skip?_write` — any value.
-/

namespace Taskflow.Json

/-! ### Written text -/

/-- A layout that puts nothing but blanks between the parts of a value. -/
structure Layout.IsBlank (l : Layout) : Prop where
  lineBreak : ∀ depth, ∀ c ∈ (l.lineBreak depth).toList, Reader.isBlank c = true
  colon : ∃ bs, l.colon.toList = ':' :: bs ∧ ∀ c ∈ bs, Reader.isBlank c = true

/-- The layout without blanks is one of blanks. -/
lemma Layout.isBlank_compact : Layout.compact.IsBlank where
  lineBreak := by simp [Layout.compact]
  colon := ⟨[], rfl, by simp⟩

/-- The layout with line breaks is one of blanks. -/
lemma Layout.isBlank_pretty : Layout.pretty.IsBlank where
  lineBreak depth c hc := by
    have hspaces : ∀ n, ("".pushn ' ' n).toList = List.replicate n ' ' := by
      intro n
      rw [String.pushn_eq_repeat_push]
      induction n with
      | zero => rfl
      | succ n ih => rw [Nat.repeat, String.toList_push, ih, List.replicate_succ']
    rw [show Layout.pretty.lineBreak depth = "\n" ++ "".pushn ' ' (2 * depth) from rfl,
      String.toList_append, hspaces] at hc
    rcases List.mem_append.1 hc with hc | hc
    · obtain rfl := List.mem_singleton.1 hc
      rfl
    · obtain rfl := List.eq_of_mem_replicate hc
      rfl
  colon := ⟨[' '], rfl, by simp [Reader.isBlank]⟩

/-- A quoted text stands between quotes, character by character. -/
lemma toList_quote (s : String) :
    (quote s).toList = '"' :: (s.toList.flatMap escapeChar ++ ['"']) := by
  simp [quote]

/-- A number is written with its digits, and a sign if it is negative. -/
lemma toList_toString (n : Int) : (toString n).toList =
    if 0 ≤ n then Nat.toDigits 10 n.toNat else '-' :: Nat.toDigits 10 (-n).toNat := by
  rw [Int.toString_eq_repr, Int.repr_eq_if]
  split <;> simp

section Write

variable (l : Layout) (d : Nat)

/-- How nothing is written. -/
lemma toList_write_null : (write l d .null).toList = ['n', 'u', 'l', 'l'] := by
  simp [write]

/-- How a truth value is written. -/
lemma toList_write_bool (b : Bool) : (write l d (.bool b)).toList =
    if b then ['t', 'r', 'u', 'e'] else ['f', 'a', 'l', 's', 'e'] := by
  cases b <;> simp [write]

/-- How an empty array is written. -/
lemma toList_write_arr_nil : (write l d (.arr [])).toList = ['[', ']'] := by
  simp [write]

/-- How an empty object is written. -/
lemma toList_write_obj_nil : (write l d (.obj [])).toList = ['\x7b', '\x7d'] := by
  simp [write]

/-- How an array with a first item is written. -/
lemma toList_write_arr (v : Json) (vs : List Json) : (write l d (.arr (v :: vs))).toList =
    '[' :: ((l.lineBreak (d + 1)).toList ++ ((write l (d + 1) v).toList ++
      ((writeItems l (d + 1) vs).toList ++ ((l.lineBreak d).toList ++ [']'])))) := by
  simp [write]

/-- How an object with a first member is written. -/
lemma toList_write_obj (k : String) (v : Json) (ms : List (String × Json)) :
    (write l d (.obj ((k, v) :: ms))).toList =
      '\x7b' :: ((l.lineBreak (d + 1)).toList ++ ((quote k).toList ++ (l.colon.toList ++
        ((write l (d + 1) v).toList ++ ((writeMembers l (d + 1) ms).toList ++
          ((l.lineBreak d).toList ++ ['\x7d'])))))) := by
  simp [write]

/-- An array begins with a bracket. -/
lemma exists_write_arr (vs : List Json) :
    ∃ cs, (write l d (.arr vs)).toList = '[' :: cs := by
  cases vs with
  | nil => exact ⟨_, toList_write_arr_nil l d⟩
  | cons v vs => exact ⟨_, toList_write_arr l d v vs⟩

/-- An object begins with a brace. -/
lemma exists_write_obj (ms : List (String × Json)) :
    ∃ cs, (write l d (.obj ms)).toList = '\x7b' :: cs := by
  cases ms with
  | nil => exact ⟨_, toList_write_obj_nil l d⟩
  | cons m ms => exact ⟨_, toList_write_obj l d m.1 m.2 ms⟩

/-- Items that follow another one are written behind commas. -/
lemma toList_writeItems (v : Json) (vs : List Json) : (writeItems l d (v :: vs)).toList =
    ',' :: ((l.lineBreak d).toList ++ ((write l d v).toList ++ (writeItems l d vs).toList)) := by
  simp [writeItems]

/-- Members that follow another one are written behind commas. -/
lemma toList_writeMembers (k : String) (v : Json) (ms : List (String × Json)) :
    (writeMembers l d ((k, v) :: ms)).toList =
      ',' :: ((l.lineBreak d).toList ++ ((quote k).toList ++ (l.colon.toList ++
        ((write l d v).toList ++ (writeMembers l d ms).toList)))) := by
  simp [writeMembers]

end Write

namespace Reader

/-! ### Blanks -/

/-- Blanks are skipped. -/
lemma skipBlanks_append {bs cs : List Char} (h : ∀ c ∈ bs, isBlank c = true) :
    skipBlanks (bs ++ cs) = skipBlanks cs :=
  List.dropWhile_append_of_pos h

/-- Nothing is skipped where no blank is. -/
lemma skipBlanks_cons {c : Char} {cs : List Char} (h : isBlank c = false) :
    skipBlanks (c :: cs) = c :: cs :=
  List.dropWhile_cons_of_neg (by simp [h])

/-- A character behind blanks. -/
lemma expect?_append {bs cs : List Char} {c : Char} (hbs : ∀ b ∈ bs, isBlank b = true)
    (hc : isBlank c = false) : expect? c (bs ++ c :: cs) = some cs := by
  rw [expect?, skipBlanks_append hbs, skipBlanks_cons hc]
  exact if_pos rfl

/-! ### Numbers -/

/-- What cannot be taken for the next character of a number. -/
def EndsNumber (cs : List Char) : Prop :=
  ∀ c ∈ cs.head?, c.isDigit = false ∧ c ≠ '.' ∧ c ≠ 'e' ∧ c ≠ 'E'

/-- A number is written with digits only. -/
lemma isDigit_of_mem_toDigits {n : Nat} {c : Char} (h : c ∈ Nat.toDigits 10 n) :
    c.isDigit = true :=
  Nat.isDigit_of_mem_toDigits (by decide) (by decide) h

/-- A number has a first digit. -/
lemma exists_toDigits_eq_cons (n : Nat) :
    ∃ c cs, Nat.toDigits 10 n = c :: cs ∧ c.isDigit = true := by
  obtain ⟨c, cs, h⟩ := List.exists_cons_of_ne_nil (Nat.toDigits_ne_nil (n := n) (b := 10))
  exact ⟨c, cs, h, isDigit_of_mem_toDigits (h ▸ List.mem_cons_self)⟩

/-- The digits of a number have its value. -/
lemma digitsValue_toDigits (n : Nat) : digitsValue (Nat.toDigits 10 n) = n := by
  have h := Nat.ofDigitChars_ten_toDigits (n := n)
  rwa [Nat.ofDigitChars_eq_foldl] at h

/-- Only zero is written with a zero in front. -/
lemma head?_toDigits {n : Nat} (h : 0 < n) : (Nat.toDigits 10 n).head? ≠ some '0' := by
  induction n using Nat.strongRecOn with
  | ind n ih =>
    rw [Nat.toDigits_eq_if (by decide)]
    split
    next hlt =>
      simp only [List.head?_cons, ne_eq, Option.some.injEq, Nat.digitChar_eq_zero]
      omega
    next hge =>
      obtain ⟨c, cs, hcs, -⟩ := exists_toDigits_eq_cons (n / 10)
      have hrest := ih (n / 10) (by omega) (by omega)
      rw [hcs] at hrest ⊢
      exact hrest

/-- All digits of a number are read, if none follows. -/
lemma digits?_toDigits (n : Nat) {cs : List Char} (h : EndsNumber cs) :
    digits? (Nat.toDigits 10 n ++ cs) = some (Nat.toDigits 10 n, cs) := by
  have hdigits : ∀ c ∈ Nat.toDigits 10 n, c.isDigit = true := fun c => isDigit_of_mem_toDigits
  have hend : cs.takeWhile Char.isDigit = [] ∧ cs.dropWhile Char.isDigit = cs := by
    cases cs with
    | nil => exact ⟨rfl, rfl⟩
    | cons c cs => simp [(h c rfl).1]
  rw [digits?, List.takeWhile_append_of_pos hdigits, List.dropWhile_append_of_pos hdigits, hend.1,
    hend.2, List.append_nil]
  simp

/-- The digits of a number are read as an integer part; only zero begins with a zero. -/
lemma integerPart?_toDigits (n : Nat) {cs : List Char} (h : EndsNumber cs) :
    integerPart? (Nat.toDigits 10 n ++ cs) = some (Nat.toDigits 10 n, cs) := by
  rw [integerPart?, digits?_toDigits n h]
  simp only [Option.bind_eq_bind, Option.bind_some]
  split
  next hds =>
    rcases Nat.eq_zero_or_pos n with rfl | hpos
    · simp at hds
    · exact absurd (congrArg List.head? hds) (head?_toDigits hpos)
  next => rfl

/-- Where a number ends, there is no fraction. -/
lemma fraction?_of_endsNumber {cs : List Char} (h : EndsNumber cs) :
    fraction? cs = some (false, cs) := by
  unfold fraction?
  split
  next => exact absurd rfl (h _ rfl).2.1
  next => rfl

/-- Where a number ends, there is no exponent. -/
lemma exponent?_of_endsNumber {cs : List Char} (h : EndsNumber cs) :
    exponent? cs = some (false, cs) := by
  unfold exponent?
  split
  next c rest =>
    obtain ⟨-, -, he, hE⟩ := h c rfl
    exact if_neg (by simp [he, hE])
  next => rfl

/-- A digit is no blank. -/
lemma isBlank_of_isDigit {c : Char} (h : c.isDigit = true) : isBlank c = false := by
  rw [isBlank, decide_eq_false_iff_not]
  rintro (rfl | rfl | rfl | rfl) <;> exact absurd h (by decide)

/-- **A written integer is read.** -/
theorem number?_toString (n : Int) {cs : List Char} (h : EndsNumber cs) :
    number? ((toString n).toList ++ cs) = some (.integer n, cs) := by
  rw [toList_toString]
  split
  next hn =>
    obtain ⟨c, ds, hds, hc⟩ := exists_toDigits_eq_cons n.toNat
    have hpart := integerPart?_toDigits n.toNat h
    have hvalue := digitsValue_toDigits n.toNat
    have hminus : c ≠ '-' := by rintro rfl; exact absurd hc (by decide)
    rw [hds] at hpart hvalue ⊢
    rw [number?, List.cons_append, skipBlanks_cons (isBlank_of_isDigit hc)]
    rw [List.cons_append] at hpart
    simp [hminus, hpart, fraction?_of_endsNumber h, exponent?_of_endsNumber h, hvalue,
      Int.max_eq_left hn]
  next hn =>
    have hpart := integerPart?_toDigits (-n).toNat h
    have hvalue := digitsValue_toDigits (-n).toNat
    have hpos : max (-n) 0 = -n := Int.max_eq_left (by omega)
    rw [number?, List.cons_append, skipBlanks_cons (by decide)]
    simp [hpart, fraction?_of_endsNumber h, exponent?_of_endsNumber h, hvalue, hn, hpos]

/-- A number may have blanks in front. -/
lemma number?_append {bs : List Char} (hbs : ∀ b ∈ bs, isBlank b = true) (cs : List Char) :
    number? (bs ++ cs) = number? cs := by
  rw [number?, number?, skipBlanks_append hbs]

/-! ### Strings -/

/-- A hexadecimal digit has its value. -/
lemma hexValue?_hexDigit : ∀ d < 16, hexValue? (hexDigit d) = some d := by decide

/-- The four digits of a control character. -/
lemma hex4?_control {n : Nat} (h : n < 0x20) (cs : List Char) :
    hex4? ('0' :: '0' :: hexDigit (n / 16) :: hexDigit (n % 16) :: cs) = some (n, cs) := by
  have hzero : hexValue? '0' = some 0 := by decide
  simp only [hex4?, hzero, hexValue?_hexDigit (n / 16) (by omega),
    hexValue?_hexDigit (n % 16) (by omega), Option.bind_eq_bind, Option.bind_some]
  rw [show ((0 * 16 + 0) * 16 + n / 16) * 16 + n % 16 = n by omega]

/-- A control character is its number. -/
lemma codeEscape?_control {c : Char} (h : c.toNat < 0x20) (cs : List Char) :
    codeEscape? ('0' :: '0' :: hexDigit (c.toNat / 16) :: hexDigit (c.toNat % 16) :: cs) =
      some (c, cs) := by
  rw [codeEscape?, hex4?_control h]
  simp only [Option.bind_eq_bind, Option.bind_some]
  rw [if_pos (.inl (by omega)), Char.ofNat_toNat]

/-- The three ways to write a character: behind a backslash, by its number, or as it is. -/
lemma escapeChar_cases (c : Char) :
    (∃ e, escapeChar c = ['\\', e] ∧ e ≠ 'u' ∧ simpleEscape? e = some c) ∨
      (escapeChar c = ['\\', 'u', '0', '0', hexDigit (c.toNat / 16), hexDigit (c.toNat % 16)] ∧
        c.toNat < 0x20) ∨
      (escapeChar c = [c] ∧ c ≠ '"' ∧ c ≠ '\\' ∧ ¬ c.toNat < 0x20) := by
  unfold escapeChar
  split
  next h => exact .inl ⟨'"', rfl, by decide, by subst h; decide⟩
  next hquote =>
  split
  next h => exact .inl ⟨'\\', rfl, by decide, by subst h; decide⟩
  next hback =>
  split
  next h => exact .inl ⟨'n', rfl, by decide, by subst h; decide⟩
  split
  next h => exact .inl ⟨'r', rfl, by decide, by subst h; decide⟩
  split
  next h => exact .inl ⟨'t', rfl, by decide, by subst h; decide⟩
  split
  next h => exact .inl ⟨'b', rfl, by decide, by subst h; decide⟩
  split
  next h => exact .inl ⟨'f', rfl, by decide, by subst h; decide⟩
  split
  next h => exact .inr (.inl ⟨rfl, h⟩)
  next h => exact .inr (.inr ⟨rfl, hquote, hback, h⟩)

/-- A character of a string, however it is written, takes one unit of fuel. -/
lemma stringBody?_escapeChar (fuel : Nat) (c : Char) (cs : List Char) :
    stringBody? (fuel + 1) (escapeChar c ++ cs) =
      (stringBody? fuel cs).map fun r => (c :: r.1, r.2) := by
  rcases escapeChar_cases c with ⟨e, h, hu, he⟩ | ⟨h, hc⟩ | ⟨h, hquote, hback, hc⟩
  · rw [h]
    cases hrest : stringBody? fuel cs <;> simp [stringBody?, he, hrest]
  · rw [h]
    cases hrest : stringBody? fuel cs <;> simp [stringBody?, codeEscape?_control hc, hrest]
  · rw [h]
    cases hrest : stringBody? fuel cs <;> simp [stringBody?, hquote, hback, hc, hrest]

/-- An escaped character is skipped as one. -/
lemma skipString?_escapeChar (fuel : Nat) (c : Char) (cs : List Char) :
    skipString? (fuel + 1) (escapeChar c ++ cs) = skipString? fuel cs := by
  rcases escapeChar_cases c with ⟨e, h, hu, he⟩ | ⟨h, hc⟩ | ⟨h, hquote, hback, hc⟩
  · rw [h]
    simp [skipString?, he]
  · rw [h]
    simp [skipString?, hex4?_control hc]
  · rw [h]
    simp [skipString?, hquote, hback, hc]

/-- An escaped text is read up to the closing quote. -/
lemma stringBody?_flatMap (s cs : List Char) {fuel : Nat} (h : s.length < fuel) :
    stringBody? fuel (s.flatMap escapeChar ++ '"' :: cs) = some (s, cs) := by
  induction s generalizing fuel with
  | nil =>
    obtain ⟨fuel, rfl⟩ := Nat.exists_eq_add_of_lt h
    simp [stringBody?]
  | cons c s ih =>
    obtain ⟨fuel, rfl⟩ : ∃ n, fuel = n + 1 := ⟨fuel - 1, by omega⟩
    rw [List.flatMap_cons, List.append_assoc, stringBody?_escapeChar,
      ih (Nat.lt_of_succ_lt_succ h)]
    rfl

/-- An escaped text is skipped up to the closing quote. -/
lemma skipString?_flatMap (s cs : List Char) {fuel : Nat} (h : s.length < fuel) :
    skipString? fuel (s.flatMap escapeChar ++ '"' :: cs) = some cs := by
  induction s generalizing fuel with
  | nil =>
    obtain ⟨fuel, rfl⟩ := Nat.exists_eq_add_of_lt h
    simp [skipString?]
  | cons c s ih =>
    obtain ⟨fuel, rfl⟩ : ∃ n, fuel = n + 1 := ⟨fuel - 1, by omega⟩
    rw [List.flatMap_cons, List.append_assoc, skipString?_escapeChar,
      ih (Nat.lt_of_succ_lt_succ h)]

/-- No character vanishes when it is written. -/
lemma length_le_length_flatMap_escapeChar (s : List Char) :
    s.length ≤ (s.flatMap escapeChar).length := by
  induction s with
  | nil => exact Nat.le_refl _
  | cons c s ih =>
    have hc : 0 < (escapeChar c).length := by
      rcases escapeChar_cases c with ⟨e, h, -⟩ | ⟨h, -⟩ | ⟨h, -⟩ <;> simp [h]
    rw [List.flatMap_cons, List.length_append, List.length_cons]
    omega

/-- **A written string is read**, blanks in front of it or not. -/
theorem string?_quote (s : String) {bs : List Char} (hbs : ∀ b ∈ bs, isBlank b = true)
    (cs : List Char) : string? (bs ++ ((quote s).toList ++ cs)) = some (s, cs) := by
  have hlength := length_le_length_flatMap_escapeChar s.toList
  rw [toList_quote, List.cons_append, List.append_assoc, string?, expect?_append hbs (by decide)]
  simp only [Option.bind_eq_bind, Option.bind_some, List.cons_append, List.nil_append]
  rw [stringBody?_flatMap _ _ (by rw [List.length_append]; omega)]
  simp

/-! ### Skipping -/

/-- Skips what stands behind an item: further items, and the closing bracket. -/
def skipMoreItems? (fuel : Nat) (cs : List Char) : Option (List Char) :=
  match skipBlanks cs with
  | ',' :: rest => skipItems? fuel rest
  | ']' :: rest => some rest
  | _ => none

/-- Skips what stands behind a member: further members, and the closing brace. -/
def skipMoreMembers? (fuel : Nat) (cs : List Char) : Option (List Char) :=
  match skipBlanks cs with
  | ',' :: rest => skipMembers? fuel rest
  | '\x7d' :: rest => some rest
  | _ => none

/-- An item is skipped, and then the other items. -/
lemma skipItems?_succ (fuel : Nat) (cs : List Char) :
    skipItems? (fuel + 1) cs = (skipValue? fuel cs).bind (skipMoreItems? fuel) := rfl

/-- A value may have blanks in front. -/
lemma skipValue?_append {bs : List Char} (hbs : ∀ b ∈ bs, isBlank b = true) (fuel : Nat)
    (cs : List Char) : skipValue? fuel (bs ++ cs) = skipValue? fuel cs := by
  cases fuel with
  | zero => rfl
  | succ fuel => rw [skipValue?, skipValue?, skipBlanks_append hbs]

/-- The first member of some: its name is skipped, and then its value. -/
lemma skipMembers?_succ {l : Layout} (hl : l.IsBlank) {bs : List Char}
    (hbs : ∀ b ∈ bs, isBlank b = true) (fuel : Nat) (k : String) (cs : List Char) :
    skipMembers? (fuel + 1) (bs ++ ((quote k).toList ++ (l.colon.toList ++ cs))) =
      (skipValue? fuel cs).bind (skipMoreMembers? fuel) := by
  obtain ⟨after, hcolon, hafter⟩ := hl.colon
  have hlength := length_le_length_flatMap_escapeChar k.toList
  rw [toList_quote, hcolon, List.cons_append, List.append_assoc, skipMembers?,
    expect?_append hbs (by decide)]
  simp only [Option.bind_eq_bind, Option.bind_some, List.cons_append, List.nil_append]
  rw [skipString?_flatMap _ _ (by rw [List.length_append]; omega), Option.bind_some,
    ← List.nil_append (':' :: _), expect?_append (by simp) (by decide), Option.bind_some,
    skipValue?_append hafter]
  rfl

/-- An integer begins with a digit or a minus sign. -/
lemma exists_toString_eq_cons (n : Int) :
    ∃ c cs, (toString n).toList = c :: cs ∧ (c = '-' ∨ c.isDigit = true) := by
  rw [toList_toString]
  split
  next =>
    obtain ⟨c, cs, h, hc⟩ := exists_toDigits_eq_cons n.toNat
    exact ⟨c, cs, h, .inr hc⟩
  next => exact ⟨'-', _, rfl, .inl rfl⟩

/-- Written text begins with a character that is neither a blank nor a closing bracket. -/
lemma exists_write_eq_cons (l : Layout) (d : Nat) (v : Json) :
    ∃ c cs, (write l d v).toList = c :: cs ∧ isBlank c = false ∧ c ≠ ']' := by
  match v with
  | .null => exact ⟨'n', _, toList_write_null l d, by decide, by decide⟩
  | .bool true => exact ⟨'t', _, toList_write_bool l d true, by decide, by decide⟩
  | .bool false => exact ⟨'f', _, toList_write_bool l d false, by decide, by decide⟩
  | .int n =>
    obtain ⟨c, cs, h, rfl | hc⟩ := exists_toString_eq_cons n
    · exact ⟨'-', cs, h, by decide, by decide⟩
    · exact ⟨c, cs, h, isBlank_of_isDigit hc, by rintro rfl; exact absurd hc (by decide)⟩
  | .str s => exact ⟨'"', _, toList_quote s, by decide, by decide⟩
  | .arr vs =>
    obtain ⟨cs, h⟩ := exists_write_arr l d vs
    exact ⟨'[', cs, h, by decide, by decide⟩
  | .obj ms =>
    obtain ⟨cs, h⟩ := exists_write_obj l d ms
    exact ⟨'\x7b', cs, h, by decide, by decide⟩

/-- Blanks before a written value are skipped, and nothing of the value. -/
lemma skipBlanks_write (l : Layout) (d : Nat) (v : Json) {bs : List Char}
    (hbs : ∀ b ∈ bs, isBlank b = true) (cs : List Char) :
    skipBlanks (bs ++ ((write l d v).toList ++ cs)) = (write l d v).toList ++ cs := by
  obtain ⟨c, rest, h, hc, -⟩ := exists_write_eq_cons l d v
  rw [skipBlanks_append hbs, h, List.cons_append, skipBlanks_cons hc]

/-- Blanks end a number, if what follows them does. -/
lemma endsNumber_append {bs cs : List Char} (hbs : ∀ b ∈ bs, isBlank b = true)
    (h : EndsNumber cs) : EndsNumber (bs ++ cs) := by
  cases bs with
  | nil => exact h
  | cons b bs =>
    rintro c ⟨⟩
    have hb := hbs b List.mem_cons_self
    rw [isBlank, decide_eq_true_iff] at hb
    rcases hb with rfl | rfl | rfl | rfl <;> decide

/-- A bracket behind blanks ends a number. -/
lemma endsNumber_bracket {bs : List Char} (hbs : ∀ b ∈ bs, isBlank b = true) (cs : List Char) :
    EndsNumber (bs ++ ']' :: cs) :=
  endsNumber_append hbs (by rintro c ⟨⟩; decide)

/-- A brace behind blanks ends a number. -/
lemma endsNumber_brace {bs : List Char} (hbs : ∀ b ∈ bs, isBlank b = true) (cs : List Char) :
    EndsNumber (bs ++ '\x7d' :: cs) :=
  endsNumber_append hbs (by rintro c ⟨⟩; decide)

/-- Further items end a number, if what follows them does. -/
lemma endsNumber_writeItems (l : Layout) (d : Nat) (vs : List Json) {cs : List Char}
    (h : EndsNumber cs) : EndsNumber ((writeItems l d vs).toList ++ cs) := by
  cases vs with
  | nil => exact h
  | cons v vs =>
    rw [toList_writeItems]
    rintro c ⟨⟩
    decide

/-- Further members end a number, if what follows them does. -/
lemma endsNumber_writeMembers (l : Layout) (d : Nat) (ms : List (String × Json)) {cs : List Char}
    (h : EndsNumber cs) : EndsNumber ((writeMembers l d ms).toList ++ cs) := by
  cases ms with
  | nil => exact h
  | cons m ms =>
    rw [toList_writeMembers]
    rintro c ⟨⟩
    decide

/-- Written text has a character, so there is a unit of fuel for it. -/
lemma exists_fuel_of_write {l : Layout} {d fuel : Nat} {v : Json}
    (h : (write l d v).toList.length ≤ fuel) : ∃ n, fuel = n + 1 := by
  obtain ⟨c, cs, hcons, -⟩ := exists_write_eq_cons l d v
  rw [hcons, List.length_cons] at h
  exact ⟨fuel - 1, by omega⟩

/-- An integer is skipped, if what follows ends it. -/
lemma skipValue?_toString (n : Int) (fuel : Nat) {cs : List Char} (hcs : EndsNumber cs) :
    skipValue? (fuel + 1) ((toString n).toList ++ cs) = some cs := by
  have hnumber := number?_toString n hcs
  obtain ⟨c, rest, h, hc⟩ := exists_toString_eq_cons n
  have hblank : isBlank c = false := hc.elim (by rintro rfl; decide) isBlank_of_isDigit
  -- none of the characters with which another kind of value begins
  have hothers : ∀ x ∈ ['"', '[', '\x7b', 'n', 't', 'f'], c ≠ x := by
    rintro x hx rfl
    simp only [List.mem_cons, List.not_mem_nil, or_false] at hx
    rcases hx with rfl | rfl | rfl | rfl | rfl | rfl <;> revert hc <;> decide
  rw [h, List.cons_append] at hnumber ⊢
  rw [skipValue?, skipBlanks_cons hblank]
  simp [hothers, hnumber]

/-- A quoted text is skipped. -/
lemma skipValue?_quote (s : String) (fuel : Nat) (cs : List Char) :
    skipValue? (fuel + 1) ((quote s).toList ++ cs) = some cs := by
  have hlength := length_le_length_flatMap_escapeChar s.toList
  rw [toList_quote, List.cons_append, List.append_assoc, skipValue?, skipBlanks_cons (by decide)]
  simp only [if_true, List.cons_append, List.nil_append]
  exact skipString?_flatMap _ _ (by rw [List.length_append]; omega)

/-- An array is skipped if its items are. -/
lemma skipValue?_bracket (l : Layout) (d : Nat) (v : Json) {fuel : Nat} {bs cs rest : List Char}
    (hbs : ∀ b ∈ bs, isBlank b = true)
    (h : skipItems? fuel ((write l d v).toList ++ rest) = some cs) :
    skipValue? (fuel + 1) ('[' :: (bs ++ ((write l d v).toList ++ rest))) = some cs := by
  obtain ⟨c, _, hcons, -, hc⟩ := exists_write_eq_cons l d v
  rw [skipValue?, skipBlanks_cons (by decide)]
  simp only [Char.reduceEq, if_true, if_false]
  rw [skipBlanks_write l d v hbs]
  split
  next heq =>
    rw [hcons] at heq
    cases heq
    exact absurd rfl hc
  next => exact h

/-- An object is skipped if its members are. -/
lemma skipValue?_brace (k : String) {fuel : Nat} {bs cs rest : List Char}
    (hbs : ∀ b ∈ bs, isBlank b = true)
    (h : skipMembers? fuel ((quote k).toList ++ rest) = some cs) :
    skipValue? (fuel + 1) ('\x7b' :: (bs ++ ((quote k).toList ++ rest))) = some cs := by
  rw [skipValue?, skipBlanks_cons (by decide)]
  simp only [Char.reduceEq, if_true, if_false]
  rw [toList_quote] at h ⊢
  rw [skipBlanks_append hbs, List.cons_append, skipBlanks_cons (by decide)]
  exact h

mutual

/-- A written value is skipped, if there is as much fuel as there are characters. -/
theorem skipValue?_write {l : Layout} (hl : l.IsBlank) : ∀ (v : Json) (d fuel : Nat)
    (cs : List Char), (write l d v).toList.length ≤ fuel → EndsNumber cs →
    skipValue? fuel ((write l d v).toList ++ cs) = some cs
  | .null => by
    intro d fuel cs hfuel _
    obtain ⟨fuel, rfl⟩ := exists_fuel_of_write hfuel
    rw [toList_write_null]
    simp [skipValue?, skipBlanks_cons, isBlank, word?]
  | .bool b => by
    intro d fuel cs hfuel _
    obtain ⟨fuel, rfl⟩ := exists_fuel_of_write hfuel
    rw [toList_write_bool]
    cases b <;> simp [skipValue?, skipBlanks_cons, isBlank, word?]
  | .int n => by
    intro d fuel cs hfuel hcs
    obtain ⟨fuel, rfl⟩ := exists_fuel_of_write hfuel
    exact skipValue?_toString n fuel hcs
  | .str s => by
    intro d fuel cs hfuel _
    obtain ⟨fuel, rfl⟩ := exists_fuel_of_write hfuel
    exact skipValue?_quote s fuel cs
  | .arr [] => by
    intro d fuel cs hfuel _
    obtain ⟨fuel, rfl⟩ := exists_fuel_of_write hfuel
    rw [toList_write_arr_nil]
    simp [skipValue?, skipBlanks_cons, isBlank]
  | .arr (v :: vs) => by
    intro d fuel cs hfuel _
    rw [toList_write_arr] at hfuel ⊢
    simp only [List.length_cons, List.length_append, List.length_nil] at hfuel
    obtain ⟨fuel, rfl⟩ : ∃ n, fuel = n + 2 := ⟨fuel - 2, by omega⟩
    simp only [List.append_assoc, List.cons_append, List.nil_append]
    refine skipValue?_bracket l (d + 1) v (hl.lineBreak _) ?_
    rw [skipItems?_succ, skipValue?_write hl v _ _ _ (by omega)
      (endsNumber_writeItems l _ vs (endsNumber_bracket (hl.lineBreak d) cs)), Option.bind_some]
    exact skipMoreItems?_write hl vs _ _ _ _ (by omega) (hl.lineBreak d)
  | .obj [] => by
    intro d fuel cs hfuel _
    obtain ⟨fuel, rfl⟩ := exists_fuel_of_write hfuel
    rw [toList_write_obj_nil]
    simp [skipValue?, skipBlanks_cons, isBlank]
  | .obj ((k, v) :: ms) => by
    intro d fuel cs hfuel _
    rw [toList_write_obj] at hfuel ⊢
    simp only [List.length_cons, List.length_append, List.length_nil] at hfuel
    obtain ⟨fuel, rfl⟩ : ∃ n, fuel = n + 2 := ⟨fuel - 2, by omega⟩
    simp only [List.append_assoc, List.cons_append, List.nil_append]
    refine skipValue?_brace k (hl.lineBreak _) ?_
    rw [← List.nil_append ((quote k).toList ++ _), skipMembers?_succ hl (by simp),
      skipValue?_write hl v _ _ _ (by omega)
        (endsNumber_writeMembers l _ ms (endsNumber_brace (hl.lineBreak d) cs)),
      Option.bind_some]
    exact skipMoreMembers?_write hl ms _ _ _ _ (by omega) (hl.lineBreak d)

/-- What stands behind a written item is skipped. -/
theorem skipMoreItems?_write {l : Layout} (hl : l.IsBlank) : ∀ (vs : List Json) (d fuel : Nat)
    (bs cs : List Char), (writeItems l d vs).toList.length ≤ fuel →
    (∀ b ∈ bs, isBlank b = true) →
    skipMoreItems? fuel ((writeItems l d vs).toList ++ (bs ++ ']' :: cs)) = some cs
  | [] => by
    intro d fuel bs cs _ hbs
    simp [skipMoreItems?, writeItems, skipBlanks_append hbs, skipBlanks_cons, isBlank]
  | v :: vs => by
    intro d fuel bs cs hfuel hbs
    rw [toList_writeItems] at hfuel ⊢
    simp only [List.length_cons, List.length_append] at hfuel
    obtain ⟨fuel, rfl⟩ : ∃ n, fuel = n + 1 := ⟨fuel - 1, by omega⟩
    have hends := endsNumber_bracket hbs cs
    rw [List.cons_append, skipMoreItems?, skipBlanks_cons (by decide)]
    simp only [List.append_assoc]
    rw [skipItems?_succ, skipValue?_append (hl.lineBreak d),
      skipValue?_write hl v _ _ _ (by omega) (endsNumber_writeItems l _ vs hends),
      Option.bind_some]
    exact skipMoreItems?_write hl vs _ _ _ _ (by omega) hbs

/-- What stands behind a written member is skipped. -/
theorem skipMoreMembers?_write {l : Layout} (hl : l.IsBlank) : ∀ (ms : List (String × Json))
    (d fuel : Nat) (bs cs : List Char), (writeMembers l d ms).toList.length ≤ fuel →
    (∀ b ∈ bs, isBlank b = true) →
    skipMoreMembers? fuel ((writeMembers l d ms).toList ++ (bs ++ '\x7d' :: cs)) = some cs
  | [] => by
    intro d fuel bs cs _ hbs
    simp [skipMoreMembers?, writeMembers, skipBlanks_append hbs, skipBlanks_cons, isBlank]
  | (k, v) :: ms => by
    intro d fuel bs cs hfuel hbs
    rw [toList_writeMembers] at hfuel ⊢
    simp only [List.length_cons, List.length_append] at hfuel
    obtain ⟨fuel, rfl⟩ : ∃ n, fuel = n + 1 := ⟨fuel - 1, by omega⟩
    have hends := endsNumber_brace hbs cs
    rw [List.cons_append, skipMoreMembers?, skipBlanks_cons (by decide)]
    simp only [List.append_assoc]
    rw [skipMembers?_succ hl (hl.lineBreak d),
      skipValue?_write hl v _ _ _ (by omega) (endsNumber_writeMembers l _ ms hends),
      Option.bind_some]
    exact skipMoreMembers?_write hl ms _ _ _ _ (by omega) hbs

end

/-- **A written value is skipped**, blanks in front of it or not. -/
theorem skip?_write {l : Layout} (hl : l.IsBlank) (v : Json) (d : Nat) {bs cs : List Char}
    (hbs : ∀ b ∈ bs, isBlank b = true) (hcs : EndsNumber cs) :
    skip? (bs ++ ((write l d v).toList ++ cs)) = some cs := by
  rw [skip?, skipValue?_append hbs]
  refine skipValue?_write hl v d _ cs ?_ hcs
  simp only [List.length_append]
  omega

end Reader
end Taskflow.Json
