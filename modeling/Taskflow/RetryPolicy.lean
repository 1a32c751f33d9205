import Taskflow.Duration
import Taskflow.Json.Reader
set_option autoImplicit false

/-!
# Retry policies

How often a failed task is tried again, and how long to wait before each new attempt: the wait
doubles from attempt to attempt, up to a factor of `2 ^ 32 - 1`. Attempts are counted from zero in
32 bits.

## Main definitions

* `RetryPolicy` — the number of retries and the base of the backoff.
* `RetryPolicy.shouldRetry`, `RetryPolicy.delayFor`, `RetryPolicy.maxAttempts` — its decisions.
* `RetryPolicy.totalBackoff` — the sum of all waits.
* `RetryPolicy.toJson`, `RetryPolicy.ofJson?` — the written form and its reader.
-/

namespace Taskflow

/-- When and how a failed task is tried again. -/
structure RetryPolicy where
  maxRetries : UInt32
  backoffBase : Duration
  deriving Repr, DecidableEq

namespace RetryPolicy

/-- No retries. -/
def none : RetryPolicy := ⟨0, Duration.zero⟩

instance : Inhabited RetryPolicy := ⟨none⟩

/-- The greatest 32-bit number. -/
def maxWord : Nat := 4294967295

/-- Whether there is any retry. -/
def enabled (p : RetryPolicy) : Bool := 0 < p.maxRetries

/-- The first attempt and all retries, counted up to the greatest 32-bit number. -/
def maxAttempts (p : RetryPolicy) : UInt32 :=
  UInt32.ofNat (min (p.maxRetries.toNat + 1) maxWord)

/-- Whether attempt number `attempt`, counted from zero, may be followed by another. -/
def shouldRetry (p : RetryPolicy) (attempt : UInt32) : Bool := attempt < p.maxRetries

/-- The number of an attempt that follows another does not overflow. -/
theorem toNat_succ_of_shouldRetry {p : RetryPolicy} {n : UInt32} (h : p.shouldRetry n = true) :
    n.toNat < p.maxRetries.toNat ∧ (n + 1).toNat = n.toNat + 1 := by
  have hlt : n.toNat < p.maxRetries.toNat := by
    simpa [shouldRetry, UInt32.lt_iff_toNat_lt] using h
  have hmax := p.maxRetries.toNat_lt
  refine ⟨hlt, ?_⟩
  rw [UInt32.toNat_add]
  exact Nat.mod_eq_of_lt (show n.toNat + 1 < 2 ^ 32 by omega)

/-- The factor of the wait after an attempt: a power of two, up to the greatest 32-bit number. -/
def factor (attempt : Nat) : Nat := if attempt < 32 then Nat.pow 2 attempt else maxWord

/-- The wait after attempt number `attempt`. -/
def delayFor (p : RetryPolicy) (attempt : Nat) : Duration := p.backoffBase.mul (factor attempt)

/-- The sum of the waits after the first `n` attempts. -/
def backoffUpTo (p : RetryPolicy) (n : Nat) : Duration :=
  (List.range n).foldl (fun sum attempt => sum.add (p.delayFor attempt)) Duration.zero

/-- The sum of the waits if every attempt fails. -/
def totalBackoff (p : RetryPolicy) : Duration := p.backoffUpTo p.maxRetries.toNat

/-! ## JSON -/

/-- The greatest 64-bit number. -/
def maxLongWord : Nat := 18446744073709551615

/-- As JSON: the number of retries and the base in whole milliseconds, cut to 64 bits. -/
def toJson (p : RetryPolicy) : Json :=
  .obj [("max_retries", .int p.maxRetries.toNat),
    ("backoff_base", .int (p.backoffBase.millis % (maxLongWord + 1) : Nat))]

/-- The two fields while they are being read. -/
structure Fields where
  maxRetries : Option Nat := .none
  backoffMillis : Option Nat := .none

namespace Fields

/-- The policy, once both fields are there. -/
def policy? (f : Fields) : Option RetryPolicy := do
  some ⟨UInt32.ofNat (← f.maxRetries), Duration.ofMillis (← f.backoffMillis)⟩

end Fields

/-- A number between zero and `max`. -/
def natField? (max : Nat) (cs : List Char) : Option (Nat × List Char) := do
  let (n, rest) ← Json.Reader.number? cs
  some (← n.natUpTo? max, rest)

/-- Reads the member called `name`: a known one once, an unknown one is skipped. -/
def readMember? (name : String) (f : Fields) (cs : List Char) : Option (Fields × List Char) :=
  if name = "max_retries" then
    if f.maxRetries.isSome then .none
    else (natField? maxWord cs).map fun r => ({ f with maxRetries := some r.1 }, r.2)
  else if name = "backoff_base" then
    if f.backoffMillis.isSome then .none
    else (natField? maxLongWord cs).map fun r => ({ f with backoffMillis := some r.1 }, r.2)
  else (Json.Reader.skip? cs).map fun rest => (f, rest)

/-- Reads the item at a position: first the number of retries, then the base. -/
def readItem? (i : Nat) (f : Fields) (cs : List Char) : Option (Fields × List Char) :=
  if i = 0 then (natField? maxWord cs).map fun r => ({ f with maxRetries := some r.1 }, r.2)
  else if i = 1 then
    (natField? maxLongWord cs).map fun r => ({ f with backoffMillis := some r.1 }, r.2)
  else .none

/-- Reads a policy: an object with both members, or an array of the two numbers. -/
def read? (cs : List Char) : Option (RetryPolicy × List Char) := do
  let (f, rest) ←
    match Json.Reader.skipBlanks cs with
    | '[' :: _ => Json.Reader.items? readItem? {} cs
    | _ => Json.Reader.members? readMember? {} cs
  some (← f.policy?, rest)

/-- Reads a JSON text that is one policy. -/
def ofJson? (text : String) : Option RetryPolicy := Json.Reader.whole? read? text

end RetryPolicy

end Taskflow
