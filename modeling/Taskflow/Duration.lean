set_option autoImplicit false

/-!
# Durations

A duration is a whole number of nanoseconds of at most `2 ^ 64 - 1` seconds and 999999999
nanoseconds. Sums and products that would exceed this are cut down to it.

## Main definitions

* `Duration` — the type; `Duration.max` is the longest one.
* `Duration.ofNanos`, `Duration.ofMillis`, `Duration.ofSecs` — saturating constructors.
* `Duration.add`, `Duration.mul` — saturating arithmetic.
* `Duration.text` — the shortest exact decimal text with its unit.
-/

namespace Taskflow

/-- A span of time in nanoseconds. -/
structure Duration where
  nanos : Nat
  le_max : nanos ≤ 18446744073709551615999999999
  deriving Repr, DecidableEq

namespace Duration

/-- The nanoseconds of the longest duration. -/
def maxNanos : Nat := 18446744073709551615999999999

/-- The duration of `n` nanoseconds, or the longest one. -/
def ofNanos (n : Nat) : Duration := ⟨min n maxNanos, Nat.min_le_right _ _⟩

/-- No time. -/
def zero : Duration := ofNanos 0

/-- The longest duration. -/
def max : Duration := ofNanos maxNanos

instance : Inhabited Duration := ⟨zero⟩

/-- The duration of `n` milliseconds, or the longest one. -/
def ofMillis (n : Nat) : Duration := ofNanos (n * 1000000)

/-- The duration of `n` seconds, or the longest one. -/
def ofSecs (n : Nat) : Duration := ofNanos (n * 1000000000)

/-- The whole milliseconds. -/
def millis (d : Duration) : Nat := d.nanos / 1000000

/-- The sum, or the longest duration. -/
def add (d e : Duration) : Duration := ofNanos (d.nanos + e.nanos)

/-- The multiple, or the longest duration. -/
def mul (d : Duration) (k : Nat) : Duration := ofNanos (d.nanos * k)

/-- A number of nanoseconds that is too large becomes the longest duration. -/
@[simp] theorem nanos_ofNanos (n : Nat) : (ofNanos n).nanos = min n maxNanos := rfl

/-- Durations of as many nanoseconds are the same. -/
@[ext] theorem ext {d e : Duration} (h : d.nanos = e.nanos) : d = e := by
  cases d; cases e; cases h; rfl

/-! ## Text -/

/-- `n` in decimal, with zeros in front up to `width` digits. -/
def padded (width n : Nat) : String :=
  let digits := toString n
  "".pushn '0' (width - digits.length) ++ digits

/-- A whole number with `places` decimal places behind it, without trailing zeros. -/
def decimal (whole fraction places : Nat) : String :=
  let digits := (padded places fraction).toList.reverse.dropWhile (· = '0') |>.reverse
  if digits.isEmpty then toString whole
  else toString whole ++ "." ++ String.ofList digits

/-- The text in the largest unit of seconds, milliseconds, microseconds and nanoseconds that does
not exceed the duration. -/
def text (d : Duration) : String :=
  if 1000000000 ≤ d.nanos then
    decimal (d.nanos / 1000000000) (d.nanos % 1000000000) 9 ++ "s"
  else if 1000000 ≤ d.nanos then decimal (d.nanos / 1000000) (d.nanos % 1000000) 6 ++ "ms"
  else if 1000 ≤ d.nanos then decimal (d.nanos / 1000) (d.nanos % 1000) 3 ++ "µs"
  else toString d.nanos ++ "ns"

end Duration

end Taskflow
