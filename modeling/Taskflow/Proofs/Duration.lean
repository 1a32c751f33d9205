import Mathlib.Algebra.Order.Ring.Nat
import Mathlib.Order.Lattice
import Mathlib.Tactic.Common
import Taskflow.Duration
set_option autoImplicit false

/-!
# Durations in machine words

A duration fits two machine words: its whole seconds in 64 bits, and in 32 bits the nanoseconds of
the second that has begun. Arithmetic on the words carries from the nanoseconds to the seconds and
has to notice wherever a word overflows. This module shows that it computes the sums and products
of `Duration`, which are exact up to the longest duration.

## Main definitions

* `Duration.Words` — the two words; `Duration.words` — those of a duration.
* `Duration.Words.add?`, `Duration.Words.mul?` — sum and product, if no word overflows.
* `Duration.Words.add`, `Duration.Words.mul` — the same, or the longest duration.

## Main results

* `Duration.Words.add?_eq`, `Duration.Words.mul?_eq` — a word overflows exactly where the exact
  result exceeds the longest duration.
* `Duration.words_add`, `Duration.words_mul` — the words of a sum and of a product.
-/

namespace Taskflow.Duration

/-! ### Order -/

instance : LinearOrder Duration := LinearOrder.lift' nanos fun _ _ => ext

/-- Durations are compared by their nanoseconds. -/
lemma le_iff {d e : Duration} : d ≤ e ↔ d.nanos ≤ e.nanos := Iff.rfl

/-- A sum is exact, or the longest duration. -/
lemma nanos_add (d e : Duration) : (d.add e).nanos = min (d.nanos + e.nanos) maxNanos := rfl

/-- A product is exact, or the longest duration. -/
lemma nanos_mul (d : Duration) (k : Nat) : (d.mul k).nanos = min (d.nanos * k) maxNanos := rfl

/-- Milliseconds of 64 bits are never cut down. -/
lemma nanos_ofMillis {ms : Nat} (h : ms < 2 ^ 64) : (ofMillis ms).nanos = ms * 1000000 := by
  rw [ofMillis, nanos_ofNanos, maxNanos]
  exact Nat.min_eq_left (by omega)

/-! ### Words -/

/-- A duration in two machine words: whole seconds, and less than a second in nanoseconds. -/
@[ext]
structure Words where
  secs : UInt64
  nanos : UInt32
  nanos_lt : nanos.toNat < 1000000000
  deriving DecidableEq

namespace Words

/-- All of it in nanoseconds. -/
def total (w : Words) : Nat := w.secs.toNat * 1000000000 + w.nanos.toNat

/-- Two durations of as many nanoseconds have the same words. -/
lemma eq_of_total {v w : Words} (h : v.total = w.total) : v = w := by
  have hv := v.nanos_lt
  have hw := w.nanos_lt
  simp only [total] at h
  exact Words.ext (UInt64.toNat_inj.1 (by omega)) (UInt32.toNat_inj.1 (by omega))

/-- The words of a number of nanoseconds that is not too great. -/
def ofTotal (n : Nat) (_ : n ≤ maxNanos) : Words where
  secs := .ofNat (n / 1000000000)
  nanos := .ofNat (n % 1000000000)
  nanos_lt := by
    rw [UInt32.toNat_ofNat_of_lt' (by simp only [UInt32.size]; omega)]
    omega

/-- Words that are made of a number of nanoseconds hold this number. -/
lemma total_ofTotal {n : Nat} (h : n ≤ maxNanos) : (ofTotal n h).total = n := by
  have hsecs : n / 1000000000 < UInt64.size := by
    simp only [maxNanos] at h
    simp only [UInt64.size]
    omega
  simp only [total, ofTotal]
  rw [UInt64.toNat_ofNat_of_lt' hsecs,
    UInt32.toNat_ofNat_of_lt' (by simp only [UInt32.size]; omega)]
  omega

/-- The longest duration. -/
def max : Words := ofTotal maxNanos le_rfl

/-- A number in 64 bits, if it fits. -/
def fit? (n : Nat) : Option UInt64 := if n < 2 ^ 64 then some (.ofNat n) else none

/-- A number fits into a word exactly if the word has its value. -/
lemma fit?_eq_some_iff {n : Nat} {x : UInt64} : fit? n = some x ↔ x.toNat = n := by
  unfold fit?
  split
  next h =>
    rw [Option.some_inj, ← UInt64.toNat_inj, UInt64.toNat_ofNat_of_lt' h]
    exact eq_comm
  next h =>
    have := x.toNat_lt
    simp only [reduceCtorEq, false_iff]
    omega

/-- A number does not fit into a word exactly if it is too large. -/
lemma fit?_eq_none_iff {n : Nat} : fit? n = none ↔ 2 ^ 64 ≤ n := by
  unfold fit?
  split <;> simp only [reduceCtorEq, true_iff, false_iff] <;> omega

/-- The nanoseconds of two parts of a second fit 32 bits together. -/
lemma toNat_nanos_add (v w : Words) :
    (v.nanos + w.nanos).toNat = v.nanos.toNat + w.nanos.toNat := by
  have hv := v.nanos_lt
  have hw := w.nanos_lt
  rw [UInt32.toNat_add]
  exact Nat.mod_eq_of_lt (by omega)

/-- Behind a second that is carried over, less than a second is left. -/
lemma toNat_nanos_carried {v w : Words} (h : ¬ (v.nanos + w.nanos).toNat < 1000000000) :
    (v.nanos + w.nanos - 1000000000).toNat = v.nanos.toNat + w.nanos.toNat - 1000000000 := by
  rw [UInt32.toNat_sub_of_le _ _ (UInt32.le_iff_toNat_le.2 (Nat.not_lt.1 h)), toNat_nanos_add]
  rfl

/-- The nanoseconds of a part of a second, so many times, fit 64 bits. -/
lemma toNat_nanos_mul (w : Words) (k : UInt32) :
    (w.nanos.toUInt64 * k.toUInt64).toNat = w.nanos.toNat * k.toNat := by
  have hlt : w.nanos.toNat * k.toNat < 2 ^ 64 :=
    calc w.nanos.toNat * k.toNat
        ≤ 1000000000 * 2 ^ 32 := Nat.mul_le_mul w.nanos_lt.le k.toNat_lt.le
      _ < 2 ^ 64 := by decide
  rw [UInt64.toNat_mul, UInt32.toNat_toUInt64, UInt32.toNat_toUInt64, Nat.mod_eq_of_lt hlt]

/-- The nanoseconds of a product behind its last whole second. -/
lemma toNat_nanos_rest (w : Words) (k : UInt32) :
    (w.nanos.toUInt64 * k.toUInt64 % 1000000000).toUInt32.toNat =
      w.nanos.toNat * k.toNat % 1000000000 := by
  rw [UInt64.toNat_toUInt32, UInt64.toNat_mod, toNat_nanos_mul]
  change w.nanos.toNat * k.toNat % 1000000000 % 2 ^ 32 = _
  omega

/-- The sum: nanoseconds that make up a second are carried over to the seconds. -/
def add? (v w : Words) : Option Words := do
  let secs ← fit? (v.secs.toNat + w.secs.toNat)
  if h : (v.nanos + w.nanos).toNat < 1000000000 then some ⟨secs, v.nanos + w.nanos, h⟩
  else
    let secs ← fit? (secs.toNat + 1)
    some ⟨secs, v.nanos + w.nanos - 1000000000, by
      have hv := v.nanos_lt
      have hw := w.nanos_lt
      rw [toNat_nanos_carried h]
      omega⟩

/-- The multiple: the nanoseconds are multiplied in 64 bits, and the whole seconds of that product
are carried over to the seconds. -/
def mul? (w : Words) (k : UInt32) : Option Words := do
  let secs ← fit? (w.secs.toNat * k.toNat)
  let secs ← fit? (secs.toNat + (w.nanos.toUInt64 * k.toUInt64 / 1000000000).toNat)
  some ⟨secs, (w.nanos.toUInt64 * k.toUInt64 % 1000000000).toUInt32, by
    rw [toNat_nanos_rest]
    exact Nat.mod_lt _ (by decide)⟩

/-- The sum, or the longest duration where a word overflows. -/
def add (v w : Words) : Words := (v.add? w).getD max

/-- The multiple, or the longest duration where a word overflows. -/
def mul (w : Words) (k : UInt32) : Words := (w.mul? k).getD max

/-- **A sum overflows exactly where it exceeds the longest duration**, and is exact otherwise. -/
theorem add?_eq (v w : Words) : v.add? w =
    if h : v.total + w.total ≤ maxNanos then some (ofTotal _ h) else none := by
  have hv := v.nanos_lt
  have hw := w.nanos_lt
  have hnanos := toNat_nanos_add v w
  have htotal : v.total + w.total = (v.secs.toNat + w.secs.toNat) * 1000000000 +
      (v.nanos.toNat + w.nanos.toNat) := by
    simp only [total]
    omega
  unfold add?
  rcases hsecs : fit? (v.secs.toNat + w.secs.toNat) with _ | secs
  case none =>
    rw [fit?_eq_none_iff] at hsecs
    rw [dif_neg (by simp only [maxNanos]; omega)]
    rfl
  rw [fit?_eq_some_iff] at hsecs
  have hlt := secs.toNat_lt
  simp only [Option.bind_eq_bind, Option.bind_some]
  split
  next h =>
    have hle : v.total + w.total ≤ maxNanos := by simp only [maxNanos]; omega
    rw [dif_pos hle, Option.some_inj]
    refine eq_of_total ?_
    rw [total_ofTotal, htotal, ← hsecs, ← hnanos]
    rfl
  next h =>
    have hcarried := toNat_nanos_carried h
    rcases hmore : fit? (secs.toNat + 1) with _ | more
    case none =>
      rw [fit?_eq_none_iff] at hmore
      rw [dif_neg (by simp only [maxNanos]; omega)]
      rfl
    rw [fit?_eq_some_iff] at hmore
    have hlt := more.toNat_lt
    have hle : v.total + w.total ≤ maxNanos := by simp only [maxNanos]; omega
    rw [dif_pos hle]
    refine congrArg some (eq_of_total ?_)
    rw [total_ofTotal, htotal]
    simp only [total]
    omega

/-- **A multiple overflows exactly where it exceeds the longest duration**, and is exact
otherwise. -/
theorem mul?_eq (w : Words) (k : UInt32) : w.mul? k =
    if h : w.total * k.toNat ≤ maxNanos then some (ofTotal _ h) else none := by
  have hcarry : (w.nanos.toUInt64 * k.toUInt64 / 1000000000).toNat =
      w.nanos.toNat * k.toNat / 1000000000 := by
    rw [UInt64.toNat_div, toNat_nanos_mul]
    rfl
  have htotal : w.total * k.toNat =
      w.secs.toNat * k.toNat * 1000000000 + w.nanos.toNat * k.toNat := by
    rw [total, Nat.add_mul, Nat.mul_right_comm]
  unfold mul?
  generalize hproduct : w.nanos.toNat * k.toNat = product at hcarry htotal
  rcases hsecs : fit? (w.secs.toNat * k.toNat) with _ | secs
  case none =>
    rw [fit?_eq_none_iff] at hsecs
    rw [dif_neg (by simp only [maxNanos]; omega)]
    rfl
  rw [fit?_eq_some_iff] at hsecs
  rw [← hsecs] at htotal
  simp only [Option.bind_eq_bind, Option.bind_some, hcarry]
  rcases hmore : fit? (secs.toNat + product / 1000000000) with _ | more
  case none =>
    rw [fit?_eq_none_iff] at hmore
    rw [dif_neg (by simp only [maxNanos]; omega)]
    rfl
  rw [fit?_eq_some_iff] at hmore
  have hlt := more.toNat_lt
  have hle : w.total * k.toNat ≤ maxNanos := by simp only [maxNanos]; omega
  rw [dif_pos hle]
  refine congrArg some (eq_of_total ?_)
  rw [total_ofTotal, htotal]
  simp only [total, toNat_nanos_rest, hproduct]
  omega

/-- The longest duration holds the largest number of nanoseconds. -/
lemma total_max : max.total = maxNanos := total_ofTotal le_rfl

/-- A result that is exact or missing, and then replaced by the longest duration, is clamped. -/
private lemma total_getD {n : Nat} :
    ((if h : n ≤ maxNanos then some (ofTotal n h) else none).getD max).total =
      min n maxNanos := by
  split
  next h => rw [Option.getD_some, total_ofTotal, Nat.min_eq_left h]
  next h => rw [Option.getD_none, total_max, Nat.min_eq_right (Nat.le_of_not_le h)]

/-- A sum of words is exact, or the longest duration. -/
lemma total_add (v w : Words) : (v.add w).total = min (v.total + w.total) maxNanos := by
  rw [add, add?_eq, total_getD]

/-- A product of words is exact, or the longest duration. -/
lemma total_mul (w : Words) (k : UInt32) :
    (w.mul k).total = min (w.total * k.toNat) maxNanos := by
  rw [mul, mul?_eq, total_getD]

end Words

/-! ### The words of a duration -/

/-- The words of a duration. -/
def words (d : Duration) : Words := .ofTotal d.nanos d.le_max

/-- The words of a duration hold its nanoseconds. -/
lemma total_words (d : Duration) : d.words.total = d.nanos := Words.total_ofTotal d.le_max

/-- The words of a sum are the sum of the words. -/
theorem words_add (d e : Duration) : (d.add e).words = d.words.add e.words := by
  refine Words.eq_of_total ?_
  rw [Words.total_add, total_words, total_words, total_words, nanos_add]

/-- The words of a multiple are the multiple of the words. -/
theorem words_mul (d : Duration) (k : UInt32) : (d.mul k.toNat).words = d.words.mul k := by
  refine Words.eq_of_total ?_
  rw [Words.total_mul, total_words, total_words, nanos_mul]

end Taskflow.Duration
