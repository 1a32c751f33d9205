set_option autoImplicit false

/-!
# Concurrency slots

At most so many tasks hold a slot at once. Those who find no free slot stand in a line; a slot that
is given back goes to the head of the line before it counts as free.

## Main definitions

* `Slots` — the free slots and the line.
* `Slots.take`, `Slots.join`, `Slots.leave`, `Slots.release` — what can be done.
* `Slots.ofLimit?` — slots for a limit on concurrency.
-/

namespace Taskflow

/-- The number of free slots, and who waits for one. -/
structure Slots where
  free : Nat
  line : List Nat := []
  deriving Repr, DecidableEq, Inhabited

namespace Slots

/-- The most slots there can be. -/
def maxCount : Nat := 2305843009213693951

/-- What is said of a limit beyond the most slots there can be. -/
def tooManyMessage : String :=
  "a semaphore may not have more than MAX_PERMITS permits (" ++ toString maxCount ++ ")"

/-- The limit that holds for a requested one: at least one. -/
def effectiveLimit (requested : Nat) : Nat := max requested 1

/-- The slots for a requested limit, if there can be so many. -/
def ofLimit? (requested : Nat) : Except String Slots :=
  if effectiveLimit requested ≤ maxCount then .ok ⟨effectiveLimit requested, []⟩
  else .error tooManyMessage

/-- A free slot is taken. -/
def take (s : Slots) : Slots := { s with free := s.free - 1 }

/-- Joins the line at its end. -/
def join (s : Slots) (who : Nat) : Slots := { s with line := s.line ++ [who] }

/-- Gives a slot back: the head of the line has it from now on, if there is one. -/
def release (s : Slots) : Slots × Option Nat :=
  match s.line with
  | [] => ({ s with free := s.free + 1 }, none)
  | who :: line => ({ s with line }, some who)

/-- Leaves the line. -/
def leave (s : Slots) (who : Nat) : Slots := { s with line := s.line.erase who }

end Slots

end Taskflow
