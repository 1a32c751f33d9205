import Taskflow.Proofs.State.Outline
import Taskflow.Proofs.State.Publishing
set_option autoImplicit false

/-!
# States and coordinators without times

What is left of events and states when it does not matter at which time something happened, and
coordinators that do the same at different times: what one does, the other has done a fixed span of
time before.

## Main definitions

* `TaskChange.timeless`, `TaskState.timeless`, `SystemState.timeless` — what is left.
* `Coordinator.Alike` — two coordinators that differ by a span of time.

## Main results

* `SystemState.timeless_fold` — the state that events lead to, without times, depends on the events
  without times only.
* `Coordinator.Alike.receive`, `Coordinator.Alike.tick` — coordinators that differ by a span of time
  go on doing so.
-/

namespace Taskflow

/-! ### Events and states -/

/-- A change without times. -/
def TaskChange.timeless : TaskChange → TaskChange
  | .started _ => .started .epoch
  | .retrying attempt maxAttempts _ => .retrying attempt maxAttempts .epoch
  | .completed _ outcome => .completed .epoch outcome
  | .registered name => .registered name
  | .output stream line => .output stream line
  | .blocked dependency => .blocked dependency

/-- An event without times. -/
def TaskEvent.timeless (e : TaskEvent) : TaskEvent := ⟨e.task, e.change.timeless⟩

namespace TaskState

/-- A state without times: only whether there are any. -/
def timeless (s : TaskState) : TaskState :=
  { s with
    startedAt := s.startedAt.map fun _ => .epoch
    completedAt := s.completedAt.map fun _ => .epoch }

/-- A task without its times follows the changes without theirs. -/
lemma timeless_apply (s : TaskState) (c : TaskChange) :
    (s.apply c).timeless = s.timeless.apply c.timeless := by
  cases c with
  | output stream line => cases stream <;> rfl
  | completed time outcome => cases outcome <;> rfl
  | _ => rfl

end TaskState

namespace SystemState

/-- All tasks without times. -/
def timeless (s : SystemState) : SystemState := ⟨s.tasks.mapValues TaskState.timeless⟩

/-- A state without its times follows the events without theirs. -/
lemma timeless_apply (s : SystemState) (e : TaskEvent) :
    (s.apply e).timeless = s.timeless.apply e.timeless := by
  obtain ⟨id, change⟩ := e
  have hmodify : (s.tasks.modify id (·.apply change)).mapValues TaskState.timeless =
      (s.tasks.mapValues TaskState.timeless).modify id (·.apply change.timeless) :=
    Table.mapValues_modify _ _ _ fun t => t.timeless_apply change
  cases change with
  | registered name => exact congrArg SystemState.mk (Table.mapValues_insert _ _ _ _)
  | _ => exact congrArg SystemState.mk hmodify

/-- **The state without times depends on the events without times only.** -/
theorem timeless_fold (events : List TaskEvent) (s : SystemState) :
    (s.fold events).timeless = s.timeless.fold (events.map TaskEvent.timeless) := by
  induction events generalizing s with
  | nil => rfl
  | cons e rest ih => rw [fold_cons, ih, timeless_apply, List.map_cons, fold_cons]

end SystemState

/-! ### Coordinators -/

namespace Coordinator

/-- Two coordinators of which the first does everything later, by `span`. How often their slots were
filled does not matter. -/
structure Alike (span : Nat) (c c' : Coordinator) : Prop where
  interval_eq : c.interval = c'.interval
  pending_eq : c.pending.toList.map TaskEvent.timeless = c'.pending.toList.map TaskEvent.timeless
  isClosed_eq : c.isClosed = c'.isClosed
  state_eq : c.state.timeless = c'.state.timeless
  dirty_eq : c.dirty = c'.dirty
  lastPublished_eq : c.lastPublished = c'.lastPublished + span
  nextTick_eq : c.nextTick = c'.nextTick + span
  published_eq : c.published.map (·.state.timeless) = c'.published.map (·.state.timeless)
  slot_eq : c.slot.state.timeless = c'.slot.state.timeless
  isDone_eq : c.isDone = c'.isDone

namespace Alike

variable {span now : Nat} {c c' : Coordinator}

/-- Events that differ by their times are sent. -/
lemma send (h : Alike span c c') {e e' : TaskEvent} (he : e.timeless = e'.timeless) :
    Alike span (c.send e) (c'.send e') where
  __ := h
  pending_eq := by
    simp only [Coordinator.send, Array.toList_push, List.map_append, h.pending_eq, List.map_cons,
      he]

/-- The queue is closed in both. -/
lemma close (h : Alike span c c') : Alike span c.close c'.close := { h with isClosed_eq := rfl }

/-- A snapshot is published later by the span. -/
lemma publish (h : Alike span c c') (now : Nat) :
    Alike span (c.publish (now + span)) (c'.publish now) where
  __ := h
  dirty_eq := rfl
  lastPublished_eq := rfl
  published_eq := by
    simp only [Coordinator.publish, List.map_cons, h.state_eq, h.published_eq]
  slot_eq := h.state_eq

/-- A batch is taken from both. -/
lemma takeBatch (h : Alike span c c') : Alike span c.takeBatch c'.takeBatch where
  interval_eq := by simp only [Coordinator.takeBatch, h.interval_eq]
  pending_eq := by
    simp only [toList_pending_takeBatch, List.map_drop, h.pending_eq]
  isClosed_eq := by rw [takeBatch_isClosed, takeBatch_isClosed, h.isClosed_eq]
  state_eq := by
    simp only [Coordinator.takeBatch, SystemState.timeless_fold, List.map_take, h.state_eq,
      h.pending_eq]
  dirty_eq := by rw [takeBatch_dirty, takeBatch_dirty]
  lastPublished_eq := by simp only [Coordinator.takeBatch, h.lastPublished_eq]
  nextTick_eq := by simp only [Coordinator.takeBatch, h.nextTick_eq]
  published_eq := by rw [takeBatch_published, takeBatch_published, h.published_eq]
  slot_eq := by rw [takeBatch_slot, takeBatch_slot, h.slot_eq]
  isDone_eq := by rw [takeBatch_isDone, takeBatch_isDone, h.isDone_eq]

/-- Both queues are empty or none is. -/
lemma isEmpty_eq (h : Alike span c c') : c.pending.isEmpty = c'.pending.isEmpty := by
  have hlength := congrArg List.length h.pending_eq
  rw [List.length_map, List.length_map, Array.length_toList, Array.length_toList] at hlength
  rw [Array.isEmpty, Array.isEmpty, hlength]

/-- **The queue is served.** -/
lemma receive (h : Alike span c c') (now : Nat) :
    Alike span (c.receive (now + span)) (c'.receive now) := by
  unfold Coordinator.receive
  rw [h.isDone_eq, h.isEmpty_eq, h.isClosed_eq]
  split
  · exact h
  · split
    · split
      · exact { h.publish now with isDone_eq := rfl }
      · exact h
    · have hbatch := h.takeBatch
      generalize c.takeBatch = b, c'.takeBatch = b' at hbatch ⊢
      have hdue : b.lastPublished + b.interval ≤ now + span ↔
          b'.lastPublished + b'.interval ≤ now := by
        rw [hbatch.lastPublished_eq, hbatch.interval_eq]
        omega
      simp only [hdue]
      split
      · refine { hbatch.publish now with nextTick_eq := ?_ }
        change now + span + b.interval = now + b'.interval + span
        rw [hbatch.interval_eq]
        omega
      · exact hbatch

/-- **The ticker is served.** -/
lemma tick (h : Alike span c c') (now : Nat) :
    Alike span (c.tick (now + span)) (c'.tick now) := by
  have hnext := h.nextTick_eq
  have hidle : c.isDone = true ∨ now + span < c.nextTick ↔
      c'.isDone = true ∨ now < c'.nextTick := by
    rw [h.isDone_eq]
    exact or_congr_right (by omega)
  unfold Coordinator.tick
  by_cases hc : c'.isDone = true ∨ now < c'.nextTick
  · rw [if_pos (hidle.2 hc), if_pos hc]
    exact h
  · rw [if_neg (mt hidle.1 hc), if_neg hc]
    have hlater : Alike span
        { c with nextTick :=
            (if c.nextTick + tickTolerance < now + span then now + span else c.nextTick) +
              c.interval }
        { c' with nextTick :=
            (if c'.nextTick + tickTolerance < now then now else c'.nextTick) + c'.interval } := by
      refine { h with nextTick_eq := ?_ }
      simp only [h.interval_eq]
      split <;> split <;> omega
    have hdirty := h.dirty_eq
    dsimp only
    by_cases hd : c'.dirty = true
    · rw [if_pos (hdirty.trans hd), if_pos hd]
      exact hlater.publish now
    · rw [if_neg (hdirty ▸ hd), if_neg hd]
      exact hlater

end Alike

end Coordinator

end Taskflow
