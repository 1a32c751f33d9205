import Taskflow.Proofs.Run.Turn
import Taskflow.Proofs.State.Publishing
set_option autoImplicit false

/-!
# The coordinator during a run

The queue of a run is closed only when all jobs have ended, and a job that has ended emits nothing.
So the coordinator publishes first parts of the events of the run, and once it is done it has seen
them all.

## Main results

* `Machine.Reached.publishes` — in every reached machine, how much was published.
* `Machine.Reached.tracks` — in every reached machine the coordinator tracks what was emitted.
* `Machine.Reached.allEnded_of_isClosed` — the queue is not closed too early.
-/

namespace Taskflow

open Coordinator (Publishes)

namespace Machine

variable {p : Plan} {i : Nat} {choices : Choices} {m m' : Machine} {v : Move} {interval : Nat}
  {world : Machine}

/-! ### Ended jobs -/

/-- All jobs have ended exactly if each of them has. -/
lemma allEnded_iff : m.allEnded = true ↔ ∀ i a, m.phaseOf? i = some a → a.hasEnded = true := by
  rw [allEnded, Array.all_eq_true]
  constructor
  · intro h i a ha
    obtain ⟨s, hs, rfl⟩ := Option.map_eq_some_iff.1 ha
    obtain ⟨hi, rfl⟩ := Array.getElem?_eq_some_iff.1 hs
    exact h i hi
  · intro h i hi
    exact h i _ (by rw [phaseOf?, Array.getElem?_eq_getElem hi]; rfl)

/-- When all jobs have ended, none can move. -/
lemma nextMove?_of_allEnded (h : m.allEnded = true) : m.nextMove? p i choices = none := by
  cases hv : m.nextMove? p i choices with
  | none => rfl
  | some v =>
    obtain ⟨j, s, -, hs, hmove⟩ := moves_of_nextMove? hv
    have hended := allEnded_iff.1 h i _ hs
    rw [hmove.not_hasEnded] at hended
    cases hended

/-! ### The coordinator of a run -/

/-- A move adds to the queue what its deed tells. -/
lemma events_make {j : Job} (hj : p.jobs[i]? = some j) :
    (m.make p i v).events =
      m.events ++ (v.deed.told.map fun c => (⟨j.task.id, c⟩ : TaskEvent)).toList := by
  rw [events, make_emissions hj, events]
  cases v.deed.told <;> simp

/-- The coordinator publishes first parts of what was emitted, and the queue is not closed too
early. -/
lemma Step.publishes {least taken : Nat} {marks : List Nat} (hs : Step p m m')
    (h : Publishes least m.events taken marks m.coordinator)
    (hclosed : m.coordinator.isClosed = true → m.allEnded = true) :
    (∃ taken' marks', Publishes least m'.events taken' marks' m'.coordinator) ∧
      (m'.coordinator.isClosed = true → m'.allEnded = true) := by
  cases hs with
  | move hv =>
    rename_i i choices v
    obtain ⟨j, s, hj, -, -⟩ := moves_of_nextMove? hv
    have hopen : m.coordinator.isClosed = false := by
      rw [← Bool.not_eq_true]
      intro hc
      rw [nextMove?_of_allEnded (hclosed hc)] at hv
      cases hv
    have hgoing : m.coordinator.isDone = false := by
      rw [← Bool.not_eq_true]
      intro hd
      rw [(h.of_isDone hd).1] at hopen
      cases hopen
    have hcoordinator := make_coordinator (m := m) (v := v) hj
    have hevents := events_make (m := m) (v := v) hj
    generalize v.deed.told = c at hcoordinator hevents
    rw [hcoordinator, hevents]
    cases c with
    | none =>
      exact ⟨⟨taken, marks, (List.append_nil m.events).symm ▸ h⟩,
        fun hc => by rw [hopen] at hc; cases hc⟩
    | some c =>
      refine ⟨⟨taken, marks, h.send hgoing _⟩, fun hc => ?_⟩
      have hsame : (m.coordinator.send ⟨j.task.id, c⟩).isClosed = m.coordinator.isClosed := rfl
      rw [hsame, hopen] at hc
      cases hc
  | arrive hi =>
    refine ⟨⟨taken, marks, h⟩, fun hc => ?_⟩
    exact absurd (allEnded_iff.1 (hclosed hc) _ _ hi) (by simp [Phase.hasEnded])
  | ambient now interrupted hc =>
    cases hc with
    | rest => exact ⟨⟨taken, marks, h⟩, hclosed⟩
    | close hended => exact ⟨⟨taken, marks, h.close⟩, fun _ => hended⟩
    | receive now =>
      exact ⟨h.receive now, fun hc => hclosed (Coordinator.isClosed_receive _ now ▸ hc)⟩
    | tick now =>
      exact ⟨⟨taken, h.tick now⟩, fun hc => hclosed (Coordinator.isClosed_tick _ now ▸ hc)⟩

/-- The registrations are emitted before the coordinator starts. -/
lemma coordinator_emitAll_ready :
    ((ready p interval world).emitAll p.registrations).coordinator =
      .queued (p.registrations.map (·.1)) interval world.now
        (world.coordinator.slot.put (registered p)) := by
  rw [emitAll_eq]
  simp [ready, Coordinator.queued, Coordinator.start]

/-- Before the first step the registrations are in the queue, which is closed if there are no jobs.
-/
lemma start_coordinator (p : Plan) (interval : Nat) (world : Machine) :
    ∃ isClosed, (start p interval world).coordinator =
    { Coordinator.queued (p.registrations.map (·.1)) interval world.now
        (world.coordinator.slot.put (registered p)) with isClosed } := by
  unfold start closeIfEnded
  rw [coordinator_emitAll_ready]
  split
  · exact ⟨true, rfl⟩
  · exact ⟨false, coordinator_emitAll_ready⟩

/-- Before the first step nothing has been taken. -/
lemma publishes_start :
    Publishes p.registrations.length (start p interval world).events 0 []
      (start p interval world).coordinator ∧
    ((start p interval world).coordinator.isClosed = true →
      (start p interval world).allEnded = true) := by
  have hstart := Publishes.queued (p.registrations.map (·.1)) interval world.now
    (world.coordinator.slot.put (registered p))
  rw [← coordinator_emitAll_ready, List.length_map] at hstart
  rw [events_start]
  unfold start closeIfEnded
  split
  next h => exact ⟨hstart.close, fun _ => h⟩
  next =>
    refine ⟨hstart, fun hc => ?_⟩
    rw [coordinator_emitAll_ready] at hc
    cases hc

/-- Along a run the coordinator publishes first parts of the queue, which is closed only when all
jobs have ended. -/
lemma Reached.publishes_and (h : Reached p interval world m) :
    (∃ taken marks, Publishes p.registrations.length m.events taken marks m.coordinator) ∧
      (m.coordinator.isClosed = true → m.allEnded = true) := by
  induction h with
  | refl => exact ⟨⟨0, [], publishes_start.1⟩, publishes_start.2⟩
  | tail _ hs ih =>
    obtain ⟨⟨taken, marks, h⟩, hclosed⟩ := ih
    exact hs.publishes h hclosed

/-- **In every reached machine the coordinator has published first parts of what was emitted**, and
none before it had taken a batch of registrations. -/
theorem Reached.publishes (h : Reached p interval world m) :
    ∃ taken marks, Publishes p.registrations.length m.events taken marks m.coordinator :=
  h.publishes_and.1

/-- **In every reached machine the coordinator tracks what was emitted.** -/
theorem Reached.tracks (h : Reached p interval world m) : m.coordinator.Tracks m.events := by
  obtain ⟨_, _, hp⟩ := h.publishes
  exact hp.tracks

/-- **The queue is not closed before all jobs have ended.** -/
theorem Reached.allEnded_of_isClosed (h : Reached p interval world m)
    (hc : m.coordinator.isClosed = true) : m.allEnded = true := h.publishes_and.2 hc

end Machine

end Taskflow
