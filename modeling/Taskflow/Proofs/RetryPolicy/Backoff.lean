import Mathlib.Algebra.BigOperators.Group.Finset.Basic
import Mathlib.Algebra.Order.BigOperators.Group.Finset
import Taskflow.Proofs.Duration
import Taskflow.RetryPolicy
set_option autoImplicit false

/-!
# The waits of a policy

A wait is cut down in two places, where the power of two leaves 32 bits and where the product
leaves the range of durations, and the sum of all waits after each further wait. All this cutting
is one cut at the end: what comes out is the exact result, or the longest duration.

## Main definitions

* `RetryPolicy.factorWord` — the power of two as 32-bit doubling computes it.

## Main results

* `RetryPolicy.nanos_delayFor`, `RetryPolicy.nanos_backoffUpTo` — a wait and a sum of waits in
  exact arithmetic.
* `RetryPolicy.words_delayFor`, `RetryPolicy.words_backoffUpTo` — the same waits in machine words.
* `RetryPolicy.backoff_is_exact_or_longest` — both together, and that waits only grow.
-/

namespace Taskflow.RetryPolicy

/-! ### One wait -/

/-- The factor is the power of two, or the greatest 32-bit number. -/
lemma factor_eq (n : Nat) : factor n = min (2 ^ n) (2 ^ 32 - 1) := by
  unfold factor
  split
  next h =>
    have hle : 2 ^ n ≤ 2 ^ 31 := Nat.pow_le_pow_right (by decide) (by omega)
    exact (Nat.min_eq_left (show 2 ^ n ≤ 2 ^ 32 - 1 by omega)).symm
  next h =>
    have hle : 2 ^ 32 ≤ 2 ^ n := Nat.pow_le_pow_right (by decide) (by omega)
    exact (Nat.min_eq_right (show 2 ^ 32 - 1 ≤ 2 ^ n by omega)).symm

/-- No factor is zero. -/
lemma one_le_factor (n : Nat) : 1 ≤ factor n := by
  have hpos := Nat.two_pow_pos n
  rw [factor_eq]
  omega

/-- Factors grow. -/
lemma factor_mono : Monotone factor := by
  intro m n h
  rw [factor_eq, factor_eq]
  exact min_le_min_right _ (Nat.pow_le_pow_right (by decide) h)

/-- A wait is the base times a power of two of 32 bits, or the longest duration. -/
lemma nanos_delayFor (p : RetryPolicy) (n : Nat) : (p.delayFor n).nanos =
    min (p.backoffBase.nanos * min (2 ^ n) (2 ^ 32 - 1)) Duration.maxNanos := by
  rw [delayFor, Duration.nanos_mul, factor_eq]

/-- No wait is shorter than the base. -/
lemma backoffBase_le_delayFor (p : RetryPolicy) (n : Nat) : p.backoffBase ≤ p.delayFor n :=
  Duration.le_iff.2 (le_min (Nat.le_mul_of_pos_right _ (one_le_factor n)) p.backoffBase.le_max)

/-- A later wait is not shorter, nor is one with a longer base. -/
lemma delayFor_le_delayFor {p q : RetryPolicy} {m n : Nat} (hbase : p.backoffBase ≤ q.backoffBase)
    (h : m ≤ n) : p.delayFor m ≤ q.delayFor n :=
  Duration.le_iff.2 (min_le_min_right _ (Nat.mul_le_mul hbase (factor_mono h)))

/-! ### All waits -/

/-- Another rest adds its delay. -/
lemma backoffUpTo_succ (p : RetryPolicy) (m : Nat) :
    p.backoffUpTo (m + 1) = (p.backoffUpTo m).add (p.delayFor m) := by
  simp only [backoffUpTo, List.range_succ, List.foldl_append, List.foldl_cons, List.foldl_nil]

/-- The sum of the first waits, each of them cut down and the sum after each of them, is the exact
sum, or the longest duration. -/
lemma nanos_backoffUpTo (p : RetryPolicy) (m : Nat) : (p.backoffUpTo m).nanos =
    min (∑ n ∈ Finset.range m, p.backoffBase.nanos * min (2 ^ n) (2 ^ 32 - 1))
      Duration.maxNanos := by
  induction m with
  | zero => rfl
  | succ m ih =>
    rw [backoffUpTo_succ, Duration.nanos_add, ih, nanos_delayFor, Finset.sum_range_succ]
    -- an exact part that is too long makes the sum too long as well
    omega

/-- A longer base and more rests make no shorter backoff. -/
lemma backoffUpTo_le_backoffUpTo {p q : RetryPolicy} {l m : Nat}
    (hbase : p.backoffBase ≤ q.backoffBase) (h : l ≤ m) : p.backoffUpTo l ≤ q.backoffUpTo m := by
  rw [Duration.le_iff, nanos_backoffUpTo, nanos_backoffUpTo]
  refine min_le_min_right _ ?_
  calc ∑ n ∈ Finset.range l, p.backoffBase.nanos * min (2 ^ n) (2 ^ 32 - 1)
      ≤ ∑ n ∈ Finset.range l, q.backoffBase.nanos * min (2 ^ n) (2 ^ 32 - 1) :=
        Finset.sum_le_sum fun n _ => Nat.mul_le_mul_right _ hbase
    _ ≤ ∑ n ∈ Finset.range m, q.backoffBase.nanos * min (2 ^ n) (2 ^ 32 - 1) :=
        Finset.sum_le_sum_of_subset (Finset.range_mono h)

/-! ### Machine words -/

/-- The power of two as 32-bit doubling computes it: where doubling overflows, it stays at the
greatest 32-bit number. -/
def factorWord : Nat → UInt32
  | 0 => 1
  | n + 1 => if (factorWord n).toNat * 2 < 2 ^ 32 then factorWord n * 2 else .ofNat maxWord

/-- The word of a factor has its value. -/
lemma toNat_factorWord (n : Nat) : (factorWord n).toNat = factor n := by
  rw [factor_eq]
  induction n with
  | zero => rfl
  | succ n ih =>
    rw [factorWord, Nat.pow_succ]
    split
    next h =>
      rw [UInt32.toNat_mul]
      change (factorWord n).toNat * 2 % 2 ^ 32 = _
      omega
    next h =>
      change maxWord = _
      simp only [maxWord]
      omega

/-- A delay is the product of the words of the base and the factor. -/
lemma words_delayFor (p : RetryPolicy) (n : Nat) :
    (p.delayFor n).words = p.backoffBase.words.mul (factorWord n) := by
  rw [delayFor, ← toNat_factorWord, Duration.words_mul]

/-- The backoff is the sum of the products, in words. -/
lemma words_backoffUpTo (p : RetryPolicy) (m : Nat) : (p.backoffUpTo m).words =
    (List.range m).foldl (fun sum n => sum.add (p.backoffBase.words.mul (factorWord n)))
      Duration.zero.words := by
  induction m with
  | zero => rfl
  | succ m ih =>
    rw [backoffUpTo_succ, Duration.words_add, ih, words_delayFor, List.range_succ,
      List.foldl_append, List.foldl_cons, List.foldl_nil]

/-! ### Result -/

/-- **Waits are exact up to the longest duration.** For every policy:

* the wait after attempt `n` is the base times `2 ^ n` or `2 ^ 32 - 1`, whichever is less, or the
  longest duration if that is longer;
* all waits together are the exact sum of these products, or the longest duration;
* machine words compute the same: 32-bit doubling that stops at the greatest number, a product and
  a sum of seconds and nanoseconds with a carry, each of them the longest duration once a word
  overflows;
* no wait is shorter than the base, nor shorter than an earlier one, nor than that of a shorter
  base; and neither more retries nor a longer base make all waits together shorter.

**Proof sketch.** Cutting a summand down to the longest duration changes a sum only where that is
too long anyway (`nanos_backoffUpTo`), so cutting once at the end is enough. A word overflows
exactly where the exact result is too long (`Duration.Words.add?_eq`, `Duration.Words.mul?_eq`). -/
theorem backoff_is_exact_or_longest (p : RetryPolicy) :
    (∀ n, (p.delayFor n).nanos =
      min (p.backoffBase.nanos * min (2 ^ n) (2 ^ 32 - 1)) Duration.maxNanos) ∧
    p.totalBackoff.nanos =
      min (∑ n ∈ Finset.range p.maxRetries.toNat, p.backoffBase.nanos * min (2 ^ n) (2 ^ 32 - 1))
        Duration.maxNanos ∧
    (∀ n, (p.delayFor n).words = p.backoffBase.words.mul (factorWord n)) ∧
    p.totalBackoff.words = (List.range p.maxRetries.toNat).foldl
      (fun sum n => sum.add (p.backoffBase.words.mul (factorWord n))) Duration.zero.words ∧
    (∀ n, p.backoffBase ≤ p.delayFor n) ∧
    Monotone p.delayFor ∧
    (∀ q : RetryPolicy, p.backoffBase ≤ q.backoffBase → ∀ n, p.delayFor n ≤ q.delayFor n) ∧
    ∀ q : RetryPolicy, p.backoffBase ≤ q.backoffBase → p.maxRetries ≤ q.maxRetries →
      p.totalBackoff ≤ q.totalBackoff := by
  refine ⟨p.nanos_delayFor, p.nanos_backoffUpTo _, p.words_delayFor, p.words_backoffUpTo _,
    p.backoffBase_le_delayFor, fun m n h => delayFor_le_delayFor le_rfl h,
    fun q hbase n => delayFor_le_delayFor hbase le_rfl, fun q hbase hretries => ?_⟩
  exact backoffUpTo_le_backoffUpTo hbase (UInt32.le_iff_toNat_le.1 hretries)

/-- Two retries from a base of `2 ^ 63` seconds, and forty: the second wait is already as long as
it can be, and so is the sum. -/
theorem long_backoff_is_longest :
    let p : RetryPolicy := ⟨2, .ofSecs (2 ^ 63)⟩
    let q : RetryPolicy := ⟨40, .ofSecs (2 ^ 63)⟩
    p.backoffBase ≤ q.backoffBase ∧ p.maxRetries ≤ q.maxRetries ∧ p.totalBackoff = .max ∧
      p.totalBackoff ≤ q.totalBackoff ∧ q.totalBackoff = .max := by
  intro p q
  have hbase : p.backoffBase ≤ q.backoffBase := le_rfl
  have hretries : p.maxRetries ≤ q.maxRetries := by decide
  obtain ⟨-, -, -, -, -, -, -, hgrows⟩ := backoff_is_exact_or_longest p
  exact ⟨hbase, hretries, by decide +kernel, hgrows q hbase hretries, by decide +kernel⟩

end Taskflow.RetryPolicy
