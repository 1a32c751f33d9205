import Taskflow.Proofs.Run.GraphPlan
set_option autoImplicit false

/-!
# Dependencies come first

However the steps of a run interleave, whatever the work does and whenever the run is interrupted:
at no moment does the queue, or a snapshot folded from it, show a task that has left `pending` while
one of its dependencies has not succeeded.

## Main definitions

* `TaskGraph.Sound` — a state shows no task before its dependencies.

## Main results

* `Machine.Reached.sound_of_prefix` — every first part of the queue folds to a sound state.
* `Machine.dependencies_succeed_first` — all states and snapshots of all runs are sound.

## Design

Four facts are put together. The end of a task is in the queue before its job has ended
(`Phase.Told`); a job is handed over only when the jobs it waits for have ended (`Phase.Gated`); it
emits nothing but the news that it is blocked before that; and what a job has emitted determines the
state of its task, whose last change is the last word on its status. Small steps emit one event at
most, so that every first part of the queue is the queue of an earlier machine.
-/

namespace Taskflow

open Relation

namespace TaskGraph

/-- A state shows no task that has left `pending` before all those on which it depends, directly or
not, have succeeded. -/
def Sound (g : TaskGraph) (s : SystemState) : Prop :=
  ∀ id t, s.get? id = some t → t.status ≠ .pending → ∀ d, TransGen g.DependsOn d id →
    ∃ u, s.get? d = some u ∧ u.status = .succeeded

/-- It is enough to look at the direct dependencies. -/
lemma sound_of_direct {g : TaskGraph} {s : SystemState}
    (h : ∀ id t, s.get? id = some t → t.status ≠ .pending → ∀ d, g.DependsOn d id →
      ∃ u, s.get? d = some u ∧ u.status = .succeeded) : g.Sound s := by
  intro id t hid hstatus d hd
  induction hd using TransGen.head_induction_on with
  | single hdep => exact h id t hid hstatus _ hdep
  | head hdep _ ih =>
    obtain ⟨u, hu, hsucc⟩ := ih
    exact h _ u hu (by simp [hsucc]) _ hdep

end TaskGraph

/-! ### Statuses -/

namespace Machine

open TaskChange

variable {p : Plan} {j : Job} {a : Phase} {k : Nat} {m : Machine} {cs told : List TaskChange}
  {i : Bool} {interval limit : Nat} {world : Machine}

/-- A job whose task has left `pending` has seen all its dependencies succeed. -/
lemma allSucceeded_of_not_pending (htold : a.Told i cs) (hgated : a.Gated p j m told) {id : TaskId}
    {name : String} (h : (cs.foldl TaskState.apply (.fresh id name)).status ≠ .pending) :
    m.AllSucceeded j := by
  have hidle : cs ≠ [] := by rintro rfl; exact h rfl
  cases a with
  | waiting | blocking => exact absurd htold hidle
  | settling outcome result =>
    cases result with
    | none => exact absurd (pending_of_settled_none (i := i) htold id name) h
    | some r => exact hgated
  | ended outcome result =>
    cases result with
    | none => exact absurd (pending_of_settled_none (i := i) htold id name) h
    | some r => exact hgated
  | _ => exact hgated

end Machine

/-! ### Every moment of every run -/

namespace Machine

variable {g : TaskGraph} {launch : Launcher} {run : RunId} {m : Machine}
  {interval limit : Nat} {world : Machine}

/-- All events of a reached machine fold to a sound state. -/
lemma Reached.sound (hslots : Slots.ofLimit? limit = .ok world.slots) (hg : g.WellFormed)
    (h : Reached (Plan.ofGraph g launch run) interval world m) :
    g.Sound (SystemState.empty.fold m.events) := by
  have hp := Plan.linked_ofGraph hg launch run
  refine TaskGraph.sound_of_direct fun id t hid hstatus d hd => ?_
  -- the task has a job, and so has its dependency
  obtain ⟨k, j, hj, rfl⟩ := h.exists_job_of_fold hid
  obtain ⟨u, hu, -, rfl⟩ := (Plan.getElem?_jobs_ofGraph_iff hg).1 hj
  rw [TaskGraph.DependsOn, Plan.jobOf, hg.dependenciesOf_of_mem hu] at hd
  obtain ⟨x, j', hj', rfl⟩ := hp.declared hj d hd
  -- the job was handed over, so its dependency has succeeded
  obtain ⟨a, ha⟩ := h.phaseOf?_of_job hj
  obtain ⟨cs, htold, -, hstate⟩ := h.get?_fold_events hslots hp hj ha
  rw [hstate] at hid
  cases hid
  have hall := allSucceeded_of_not_pending htold (h.gated hslots hj ha) hstatus
  have hout := hall x ((hp.mem_awaited hj x).2 ⟨j', hj', hd⟩)
  obtain ⟨b, hb, hended⟩ := hasEnded_of_outcomeOf? hout
  obtain ⟨cs', htold', -, hstate'⟩ := h.get?_fold_events hslots hp hj' hb
  exact ⟨_, hstate', (succeeded_iff_of_told htold' hb hended _ _).2 hout⟩

/-- **Every first part of the queue folds to a sound state.**

**Proof sketch.** If it is a part of the registrations, no task has left `pending`. Otherwise it is
all that an earlier machine had emitted. -/
theorem Reached.sound_of_prefix (hslots : Slots.ofLimit? limit = .ok world.slots)
    (hg : g.WellFormed) (h : Reached (Plan.ofGraph g launch run) interval world m)
    {es : List TaskEvent} (hes : es <+: m.events) : g.Sound (SystemState.empty.fold es) := by
  rcases h.of_events_prefix hes with hreg | ⟨m₀, h₀, -, rfl⟩
  · exact fun id t hid hstatus => absurd (SystemState.pending_of_registered hreg hid) hstatus
  · exact h₀.sound hslots hg

/-- **Dependencies succeed first.** For every graph that is built, every limit, every behaviour of
the work and every sequence of actions: what any first part of the queue folds to is sound, and so
are the snapshot that stands in the slot at the beginning, all snapshots that are published, and the
state of the coordinator.

**Proof sketch.** A job starts only after it has heard that all its dependencies have succeeded, and
whoever has succeeded has told its end before (`Reached.sound`). Every first part of the queue is
all that an earlier machine had emitted, so it is sound as well (`Reached.sound_of_prefix`).
Whatever the coordinator holds or has published is the state after a first part of the queue. -/
theorem dependencies_succeed_first {tasks : List TaskDefinition}
    (hg : TaskGraph.build tasks = .ok g) (hslots : Slots.ofLimit? limit = .ok world.slots)
    (launch : Launcher) (run : RunId) (interval : Nat) (actions : List Action) :
    let p := Plan.ofGraph g launch run
    let m := (start p interval world).run p actions
    (∀ es, es <+: m.events → g.Sound (SystemState.empty.fold es)) ∧ g.Sound (registered p) ∧
      (∀ s ∈ m.coordinator.published, g.Sound s.state) ∧ g.Sound m.coordinator.state := by
  intro p m
  have hwf := TaskGraph.wellFormed_of_build hg
  have hm : Reached p interval world m := reached_run actions
  have hpart : ∀ es, es <+: m.events → g.Sound (SystemState.empty.fold es) :=
    fun es hes => hm.sound_of_prefix hslots hwf hes
  obtain ⟨taken, hevents, hstate, hpublished⟩ := hm.tracks.state_eq
  have htaken : taken <+: m.events := hevents ▸ List.prefix_append _ _
  refine ⟨hpart, hpart _ ?_, fun s hs => ?_, hstate ▸ hpart _ htaken⟩
  · exact events_start (p := p) ▸ events_prefix_of_steps hm
  · obtain ⟨es, hes, hs⟩ := hpublished s hs
    exact hs ▸ hpart es (hes.trans htaken)

/-- While `b` is running, `a` has succeeded. -/
theorem succeeded_while_dependent_runs :
    let m := (start chainPlan 1 (Machine.world ⟨1, []⟩)).run chainPlan
      (chainActions 6 ++ [.receive])
    ∃ u, m.coordinator.state.get? ⟨"a"⟩ = some u ∧ u.status = .succeeded := by
  intro m
  have hrunning : (m.coordinator.state.get? ⟨"b"⟩).map (·.status) = some .running := by
    decide +kernel
  obtain ⟨t, ht, hstatus⟩ := Option.map_eq_some_iff.1 hrunning
  have hslots : Slots.ofLimit? 1 = .ok (Machine.world ⟨1, []⟩).slots := rfl
  have hbuild : TaskGraph.build chainTasks = .ok chainGraph := rfl
  have hsound := dependencies_succeed_first hbuild hslots (fun _ _ => .error "") default 1
    (chainActions 6 ++ [.receive])
  exact hsound.2.2.2 ⟨"b"⟩ t ht (by simp [hstatus]) ⟨"a"⟩ (.single (by decide))

end Machine

end Taskflow
