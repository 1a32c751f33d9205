import Taskflow.Proofs.State.Projection
set_option autoImplicit false

/-!
# Outlines

What is left of events and states when it does not matter at which time something happened, and
which one of several failed dependencies a blocked task was told of.

## Main definitions

* `TaskChange.outline`, `TaskState.outline`, `SystemState.outline` — what is left.

## Main results

* `TaskState.outline_foldl` — the outline of a state depends on the outlines of the changes only.
* `SystemState.outline_ext` — two states have one outline if their tasks have.
-/

namespace Taskflow

/-- The time that stands for any time. -/
def Timestamp.epoch : Timestamp := .ofMillis 0

/-- A change without times and without the name of the dependency that blocks. -/
def TaskChange.outline : TaskChange → TaskChange
  | .started _ => .started .epoch
  | .retrying attempt maxAttempts _ => .retrying attempt maxAttempts .epoch
  | .blocked _ => .blocked ⟨""⟩
  | .completed _ outcome => .completed .epoch outcome
  | .registered name => .registered name
  | .output stream line => .output stream line

namespace TaskState

/-- A state without times and without the name of the dependency that blocks: only whether there
are any. -/
def outline (s : TaskState) : TaskState :=
  { s with
    startedAt := s.startedAt.map fun _ => .epoch
    completedAt := s.completedAt.map fun _ => .epoch
    blockedBy := s.blockedBy.map fun _ => ⟨""⟩ }

/-- An outline follows the changes. -/
lemma outline_apply (s : TaskState) (c : TaskChange) :
    (s.apply c).outline = s.outline.apply c.outline := by
  cases c with
  | output stream line => cases stream <;> rfl
  | completed time outcome => cases outcome <;> rfl
  | blocked d => cases h : s.blockedBy <;> simp [apply, outline, TaskChange.outline, h]
  | _ => rfl

/-- **The outline of a state depends on the outlines of the changes only.** -/
theorem outline_foldl (cs : List TaskChange) (s : TaskState) :
    (cs.foldl apply s).outline = (cs.map TaskChange.outline).foldl apply s.outline := by
  induction cs generalizing s with
  | nil => rfl
  | cons c rest ih => rw [List.foldl_cons, ih, outline_apply, List.map_cons, List.foldl_cons]

/-- The status that a fresh task comes to depends on the outlines of the changes only. -/
lemma status_foldl_outline (cs : List TaskChange) (id : TaskId) (name : String) :
    (cs.foldl apply (.fresh id name)).status =
      ((cs.map TaskChange.outline).foldl apply (.fresh id name)).status := by
  have h := outline_foldl cs (.fresh id name)
  change _ = (cs.map TaskChange.outline).foldl apply (.fresh id name) at h
  rw [← h]
  rfl

end TaskState

namespace SystemState

/-- The outlines of all tasks. -/
def outline (s : SystemState) : SystemState :=
  ⟨⟨s.tasks.entries.map fun p => (p.1, p.2.outline)⟩⟩

/-- An outline has the tasks of the state. -/
lemma keys_outline (s : SystemState) : s.outline.tasks.keys = s.tasks.keys :=
  Table.keys_mapValues _ _

/-- An outline of a state has the outlines of its tasks. -/
lemma get?_outline (s : SystemState) (id : TaskId) :
    s.outline.get? id = (s.get? id).map TaskState.outline :=
  Table.get?_mapValues _ _ _

/-- **Two states have one outline if their tasks have**, and were registered in one order. -/
theorem outline_ext {s t : SystemState} (hs : s.Keyed) (hk : s.tasks.keys = t.tasks.keys)
    (h : ∀ id, (s.get? id).map TaskState.outline = (t.get? id).map TaskState.outline) :
    s.outline = t.outline := by
  have hnodup : s.outline.tasks.keys.Nodup := (keys_outline s).symm ▸ hs.nodup
  have hkeys : s.outline.tasks.keys = t.outline.tasks.keys := by
    rw [keys_outline, keys_outline, hk]
  exact congrArg SystemState.mk (Table.ext_get? hnodup hkeys fun id =>
    (get?_outline s id).trans ((h id).trans (get?_outline t id).symm))

/-- Events that register nothing leave the tasks as they are. -/
lemma keys_fold {es : List TaskEvent} (s : SystemState)
    (hes : ∀ e ∈ es, ∀ name, e.change ≠ .registered name) :
    (s.fold es).tasks.keys = s.tasks.keys := by
  induction es generalizing s with
  | nil => rfl
  | cons e rest ih =>
    have hkeys : (s.apply e).tasks.keys = s.tasks.keys := by
      have he := hes e List.mem_cons_self
      obtain ⟨id, change⟩ := e
      cases change with
      | registered name => exact absurd rfl (he name)
      | _ => exact Table.keys_modify _ _ _
    rw [fold_cons, ih _ fun x hx => hes x (List.mem_cons_of_mem _ hx), hkeys]

end SystemState

end Taskflow
