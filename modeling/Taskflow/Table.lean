set_option autoImplicit false

/-!
# Finite tables

A finite map as a list of pairs in the order in which the keys were first inserted. Keys do not
repeat: inserting a known key replaces its value in place.

## Main definitions

* `Table` — the type, with `get?`, `insert`, `modify`, `ofList`, `keys`, `size`.
* `Table.sameAs` — equality as maps, whatever the order of insertion.

## Main results

* `Table.get?_insert`, `Table.get?_modify` — what the operations do to look-up.
-/

namespace Taskflow

/-- A finite map from `κ` to `α`. -/
structure Table (κ α : Type) where
  entries : List (κ × α) := []
  deriving Repr, DecidableEq

namespace Table

variable {κ α : Type} [DecidableEq κ]

/-- Look-up in a list of pairs. -/
def lookup (k : κ) : List (κ × α) → Option α
  | [] => none
  | (k', a) :: rest => if k' = k then some a else lookup k rest

/-- Replaces the value of `k` in place, or appends the pair. -/
def insertInto (k : κ) (a : α) : List (κ × α) → List (κ × α)
  | [] => [(k, a)]
  | (k', a') :: rest => if k' = k then (k', a) :: rest else (k', a') :: insertInto k a rest

/-- The value stored for `k`. -/
def get? (t : Table κ α) (k : κ) : Option α := lookup k t.entries

/-- Stores `a` for `k`. -/
def insert (t : Table κ α) (k : κ) (a : α) : Table κ α := ⟨insertInto k a t.entries⟩

/-- Changes the value of `k`, if there is one. -/
def modify (t : Table κ α) (k : κ) (f : α → α) : Table κ α :=
  match t.get? k with
  | some a => t.insert k (f a)
  | none => t

/-- Whether `k` has a value. -/
def contains (t : Table κ α) (k : κ) : Bool := (t.get? k).isSome

/-- The keys, in order of insertion. -/
def keys (t : Table κ α) : List κ := t.entries.map (·.1)

/-- The values, in order of insertion. -/
def values (t : Table κ α) : List α := t.entries.map (·.2)

/-- The number of keys. -/
def size (t : Table κ α) : Nat := t.entries.length

/-- Inserts the pairs from left to right: of two pairs with one key the later wins. -/
def ofList (pairs : List (κ × α)) : Table κ α :=
  pairs.foldl (fun t p => t.insert p.1 p.2) {}

/-- Equality as maps. -/
def sameAs [DecidableEq α] (s t : Table κ α) : Bool :=
  s.size = t.size ∧ s.entries.all fun p => t.get? p.1 = some p.2

/-- A key that is inserted into a list of pairs is found, and the others stay. -/
theorem lookup_insertInto (k k' : κ) (a : α) (l : List (κ × α)) :
    lookup k' (insertInto k a l) = if k = k' then some a else lookup k' l := by
  induction l with
  | nil => simp [insertInto, lookup]
  | cons p rest ih =>
    obtain ⟨k₀, a₀⟩ := p
    by_cases h : k₀ = k
    · subst h
      by_cases h' : k₀ = k' <;> simp [insertInto, lookup, h']
    · by_cases h' : k₀ = k'
      · subst h'
        simp [insertInto, lookup, h, Ne.symm h]
      · simp [insertInto, lookup, h, h', ih]

/-- A key that is inserted is found, and the others stay. -/
@[simp] theorem get?_insert (t : Table κ α) (k k' : κ) (a : α) :
    (t.insert k a).get? k' = if k = k' then some a else t.get? k' :=
  lookup_insertInto k k' a t.entries

/-- A key that is changed is found with its change, and the others stay. -/
theorem get?_modify (t : Table κ α) (k k' : κ) (f : α → α) :
    (t.modify k f).get? k' = if k = k' then (t.get? k').map f else t.get? k' := by
  unfold modify
  cases h : t.get? k with
  | none =>
    by_cases hk : k = k'
    · subst hk
      simp [h]
    · simp [hk]
  | some a =>
    by_cases hk : k = k'
    · subst hk
      simp [h]
    · simp [hk]

end Table

end Taskflow
