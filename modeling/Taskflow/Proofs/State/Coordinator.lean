import Mathlib.Tactic.Common
import Taskflow.State.Coordinator
set_option autoImplicit false

/-!
# What a coordinator knows

The state of a coordinator is the fold of the events it has taken from the queue, in their order,
and every snapshot it has published is the fold of those it had taken by then.

## Main definitions

* `Coordinator.Tracks` — the coordinator has taken a first part of a list of events.

## Main results

* `Coordinator.Tracks.state_eq_of_isDone` — a coordinator that is done knows everything.
* `Coordinator.receive_effect`, `Coordinator.tick_effect` — all that serving a source can do.
-/

namespace Taskflow

namespace Coordinator

variable {c : Coordinator} {events : List TaskEvent}

/-- Of `events`, the coordinator has taken a first part and the rest is still in the queue; its
state is the fold of what it has taken, and its snapshots are folds of first parts of that. A
coordinator that is done has nothing left to take. -/
structure Tracks (events : List TaskEvent) (c : Coordinator) : Prop where
  state_eq : ∃ taken, events = taken ++ c.pending.toList ∧ c.state = SystemState.empty.fold taken ∧
    ∀ s ∈ c.published, ∃ es, es <+: taken ∧ s.state = SystemState.empty.fold es
  of_isDone : c.isDone = true → c.isClosed = true ∧ c.pending = #[]

/-- **A coordinator that is done knows everything.** -/
theorem Tracks.state_eq_of_isDone (h : Tracks events c) (hd : c.isDone = true) :
    c.state = SystemState.empty.fold events := by
  obtain ⟨taken, he, hs, -⟩ := h.state_eq
  rw [he, (h.of_isDone hd).2, hs]
  simp

/-! ### Single fields -/

/-- Taking a batch does not finish a coordinator. -/
@[simp] lemma takeBatch_isDone (c : Coordinator) : c.takeBatch.isDone = c.isDone := by
  simp only [Coordinator.takeBatch]

/-- Taking a batch does not close the queue. -/
@[simp] lemma takeBatch_isClosed (c : Coordinator) : c.takeBatch.isClosed = c.isClosed := by
  simp only [Coordinator.takeBatch]

/-- After a batch there is something to publish. -/
@[simp] lemma takeBatch_dirty (c : Coordinator) : c.takeBatch.dirty = true := by
  simp only [Coordinator.takeBatch]

/-- Taking a batch publishes nothing. -/
@[simp] lemma takeBatch_published (c : Coordinator) : c.takeBatch.published = c.published := by
  simp only [Coordinator.takeBatch]

/-- Taking a batch leaves the slot. -/
@[simp] lemma takeBatch_slot (c : Coordinator) : c.takeBatch.slot = c.slot := by
  simp only [Coordinator.takeBatch]

/-- Taking a batch leaves the interval. -/
@[simp] lemma takeBatch_interval (c : Coordinator) : c.takeBatch.interval = c.interval := by
  simp only [Coordinator.takeBatch]

/-- Taking a batch leaves the ticker. -/
@[simp] lemma takeBatch_nextTick (c : Coordinator) : c.takeBatch.nextTick = c.nextTick := by
  simp only [Coordinator.takeBatch]

/-- Taking a batch leaves the time of the last snapshot. -/
@[simp] lemma takeBatch_lastPublished (c : Coordinator) :
    c.takeBatch.lastPublished = c.lastPublished := by
  simp only [Coordinator.takeBatch]

/-- A batch is folded into the state. -/
@[simp] lemma takeBatch_state (c : Coordinator) :
    c.takeBatch.state = c.state.fold (c.pending.toList.take batchSize) := by
  simp only [Coordinator.takeBatch]

/-- What stays in the queue after a batch. -/
lemma toList_pending_takeBatch (c : Coordinator) :
    c.takeBatch.pending.toList = c.pending.toList.drop batchSize := by
  simp only [Coordinator.takeBatch]
  rw [Array.toList_extract, List.extract_eq_take_drop, List.take_of_length_le]
  simp

/-- Serving the ticker does not close the queue. -/
@[simp] lemma isClosed_tick (c : Coordinator) (now : Nat) : (c.tick now).isClosed = c.isClosed := by
  unfold Coordinator.tick
  split
  · rfl
  · simp only
    split <;> rfl

/-- Serving the ticker takes nothing from the queue. -/
@[simp] lemma tick_pending (c : Coordinator) (now : Nat) : (c.tick now).pending = c.pending := by
  unfold Coordinator.tick
  split
  · rfl
  · simp only
    split <;> rfl

/-- A tick does not finish a coordinator. -/
@[simp] lemma tick_isDone (c : Coordinator) (now : Nat) : (c.tick now).isDone = c.isDone := by
  unfold Coordinator.tick
  split
  · rfl
  · simp only
    split <;> rfl

/-- A tick leaves the state. -/
@[simp] lemma tick_state (c : Coordinator) (now : Nat) : (c.tick now).state = c.state := by
  unfold Coordinator.tick
  split
  · rfl
  · simp only
    split <;> rfl

/-! ### What serving a source does -/

/-- Whether the queue has something to offer. -/
lemma hasInput_eq_true_iff : c.hasInput = true ↔
    c.isDone = false ∧ (c.pending.isEmpty = false ∨ c.isClosed = true) := by
  simp [hasInput]

/-- A coordinator that is done has nothing to offer. -/
lemma hasInput_of_isDone (hd : c.isDone = true) : c.hasInput = false := by
  simp [hasInput, hd]

/-- A tick leaves what can be received. -/
@[simp] lemma hasInput_tick (c : Coordinator) (now : Nat) : (c.tick now).hasInput = c.hasInput := by
  rw [hasInput, tick_isDone, tick_pending, isClosed_tick, hasInput]

/-- Everything that serving the queue can do: nothing, the end, or a batch, which is published at
once or left for the next tick. -/
lemma receive_effect (c : Coordinator) (now : Nat) :
    (c.hasInput = false ∧ c.receive now = c) ∨
    (c.isDone = false ∧ c.pending.isEmpty = true ∧ c.isClosed = true ∧
      c.receive now = { c.publish now with isDone := true }) ∨
    (c.isDone = false ∧ c.pending.isEmpty = false ∧ c.lastPublished + c.interval ≤ now ∧
      c.receive now = { c.takeBatch.publish now with nextTick := now + c.interval }) ∨
    (c.isDone = false ∧ c.pending.isEmpty = false ∧ now < c.lastPublished + c.interval ∧
      c.receive now = c.takeBatch) := by
  unfold Coordinator.receive
  cases hdone : c.isDone with
  | true => exact .inl ⟨hasInput_of_isDone hdone, if_pos rfl⟩
  | false =>
    rw [if_neg Bool.false_ne_true]
    cases hpending : c.pending.isEmpty with
    | true =>
      cases hclosed : c.isClosed with
      | true => exact .inr (.inl ⟨rfl, rfl, rfl, rfl⟩)
      | false => exact .inl ⟨by simp [hasInput, hpending, hclosed], rfl⟩
    | false =>
      rw [if_neg Bool.false_ne_true]
      by_cases hlate : c.lastPublished + c.interval ≤ now
      · have hlate' : c.takeBatch.lastPublished + c.takeBatch.interval ≤ now := by simpa using hlate
        refine .inr (.inr (.inl ⟨rfl, rfl, hlate, (if_pos hlate').trans ?_⟩))
        rw [takeBatch_interval]
      · have hlate' : ¬ c.takeBatch.lastPublished + c.takeBatch.interval ≤ now := by
          simpa using hlate
        exact .inr (.inr (.inr ⟨rfl, rfl, Nat.lt_of_not_le hlate, if_neg hlate'⟩))

/-- Everything that serving the ticker can do, when the next tick is not overdue: nothing, or a tick
with which what has changed is published. -/
lemma tick_effect (now : Nat) (hnow : c.isDone = false → now ≤ c.nextTick) :
    (c.tick now = c ∧ (c.isDone = true ∨ now < c.nextTick)) ∨
    (c.isDone = false ∧ c.nextTick = now ∧
      c.tick now = if c.dirty then { c with nextTick := now + c.interval }.publish now
        else { c with nextTick := now + c.interval }) := by
  unfold Coordinator.tick
  by_cases hearly : c.isDone = true ∨ now < c.nextTick
  · exact .inl ⟨if_pos hearly, hearly⟩
  · rw [if_neg hearly]
    rw [not_or, Bool.not_eq_true, Nat.not_lt] at hearly
    have hdue : c.nextTick = now := Nat.le_antisymm hearly.2 (hnow hearly.1)
    have hsharp : ¬ now + tickTolerance < now := by omega
    refine .inr ⟨hearly.1, hdue, ?_⟩
    simp only [hdue, if_neg hsharp]

/-- A tick that is served the moment it is due. -/
lemma tick_of_due (hopen : c.isDone = false) :
    c.tick c.nextTick =
      if c.dirty then { c with nextTick := c.nextTick + c.interval }.publish c.nextTick
      else { c with nextTick := c.nextTick + c.interval } := by
  rcases tick_effect c.nextTick (fun _ => Nat.le_refl _) with ⟨-, hearly⟩ | ⟨-, -, heq⟩
  · simp [hopen] at hearly
  · exact heq

/-- Serving the queue does not close it. -/
@[simp] lemma isClosed_receive (c : Coordinator) (now : Nat) :
    (c.receive now).isClosed = c.isClosed := by
  rcases receive_effect c now with ⟨-, heq⟩ | ⟨-, -, -, heq⟩ | ⟨-, -, -, heq⟩ | ⟨-, -, -, heq⟩
  · rw [heq]
  · rw [heq]
    rfl
  · rw [heq]
    simp only [Coordinator.publish, takeBatch_isClosed]
  · rw [heq, takeBatch_isClosed]

end Coordinator

end Taskflow
