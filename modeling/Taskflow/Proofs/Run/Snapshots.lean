import Taskflow.Proofs.Run.GraphPlan
import Taskflow.Proofs.State.Outline
set_option autoImplicit false

/-!
# Which tasks a snapshot knows

The registrations of a graph are in the queue before the coordinator takes anything, but it takes no
more than one batch of events at once and may publish after each. So every snapshot knows the first
tasks of the graph, at least a batch of them, and exactly the graphs that are no larger than a batch
are known as a whole from the beginning.

## Main definitions

* `Machine.snapshots` — everything that anybody outside of the run was shown.

## Main results

* `Machine.Reached.keys_of_mem_snapshots` — which tasks a snapshot knows.
* `Machine.snapshots_receive_tick` — a batch is published before the rest is taken.
* `Machine.snapshots_know_all_iff` — when every snapshot knows every task.
-/

namespace Taskflow

open Coordinator (stateAt queued batchSize)

namespace SystemState

/-- Registering different tasks adds them behind the others. -/
lemma keys_fold_registered (tasks : List TaskDefinition) (s : SystemState)
    (hn : (s.tasks.keys ++ tasks.map (·.id)).Nodup) :
    (s.fold (tasks.map fun t => ⟨t.id, .registered t.name⟩)).tasks.keys =
      s.tasks.keys ++ tasks.map (·.id) := by
  induction tasks generalizing s with
  | nil => exact (List.append_nil _).symm
  | cons t rest ih =>
    have hnew : t.id ∉ s.tasks.keys := fun h =>
      (List.nodup_append.1 hn).2.2 t.id h t.id List.mem_cons_self rfl
    have hkeys : (s.apply ⟨t.id, .registered t.name⟩).tasks.keys = s.tasks.keys ++ [t.id] := by
      change (s.tasks.insert t.id _).keys = _
      rw [Table.keys_insert, if_neg hnew]
    have hsplit : s.tasks.keys ++ t.id :: rest.map (·.id) =
        s.tasks.keys ++ [t.id] ++ rest.map (·.id) := by simp
    rw [List.map_cons, fold_cons, List.map_cons, hsplit, ← hkeys]
    refine ih _ ?_
    rw [hkeys, ← hsplit]
    exact hn

end SystemState

namespace Machine

variable {g : TaskGraph} {launch : Launcher} {run : RunId} {p : Plan} {interval : Nat}
  {world m m' : Machine}

/-- Everything that anybody outside of the run was shown: what is in the slot, and what the callback
was told. -/
def snapshots (m : Machine) : List SystemState :=
  m.coordinator.slot.state :: m.coordinator.published.map (·.state)

/-! ### What is shown -/

/-- A step does one thing to the coordinator, or nothing. -/
lemma Step.coordinator_eq (h : Step p m m') : m'.coordinator = m.coordinator ∨
    ∃ s, m'.coordinator = m.coordinator.serve s := by
  cases h with
  | move hv =>
    obtain ⟨j, s, hj, -, -⟩ := moves_of_nextMove? hv
    rw [make_coordinator hj]
    cases Deed.told _ with
    | none => exact .inl rfl
    | some c => exact .inr ⟨.send ⟨j.task.id, c⟩, rfl⟩
  | arrive => exact .inl rfl
  | ambient _ _ hc =>
    cases hc with
    | rest => exact .inl rfl
    | close => exact .inr ⟨.close, rfl⟩
    | receive now => exact .inr ⟨.receive now, rfl⟩
    | tick now => exact .inr ⟨.tick now, rfl⟩

/-- In the slot is what the callback was told, or all jobs are registered there and nothing else
has happened. -/
lemma Reached.mem_snapshots (h : Reached p interval world m) {s : SystemState}
    (hs : s ∈ m.snapshots) : s = registered p ∨ s ∈ m.coordinator.published.map (·.state) := by
  rcases List.mem_cons.1 hs with rfl | hs
  · clear hs
    induction h with
    | refl =>
      obtain ⟨b, hb⟩ := start_coordinator p interval world
      rw [hb]
      exact .inl rfl
    | tail _ hstep ih =>
      rcases hstep.coordinator_eq with he | ⟨s, he⟩
      · rw [he]
        exact ih
      · rw [he]
        rcases Coordinator.serve_publishes _ s with ⟨hpub, hslot⟩ | ⟨time, hpub, hslot⟩
        · rw [hpub, hslot]
          exact ih
        · rw [hpub, hslot]
          exact .inr List.mem_cons_self
  · exact .inr hs

/-! ### The tasks of a snapshot -/

/-- At the beginning of the run of a graph all its tasks are in the slot. -/
lemma keys_registered (hg : g.WellFormed) (launch : Launcher) (run : RunId) :
    (registered (Plan.ofGraph g launch run)).tasks.keys = g.order := by
  rw [registered, Plan.registrations_ofGraph, SystemState.keys_fold_registered]
  · exact hg.map_id_orderedTasks
  · rw [hg.map_id_orderedTasks]
    exact hg.order_nodup

/-- After the first `n` events of a run of a graph the first `n` tasks are known. -/
lemma Reached.keys_stateAt (hg : g.WellFormed)
    (h : Reached (Plan.ofGraph g launch run) interval world m) (n : Nat) :
    (stateAt m.events n).tasks.keys = g.order.take n := by
  obtain ⟨es, hevents, hnot⟩ := h.events_eq
  rw [stateAt, hevents, List.take_append, SystemState.fold_append,
    SystemState.keys_fold _ fun e he => hnot e (List.mem_of_mem_take he),
    Plan.registrations_ofGraph, ← List.map_take, SystemState.keys_fold_registered]
  · rw [List.map_take, hg.map_id_orderedTasks]
    rfl
  · rw [List.map_take, hg.map_id_orderedTasks]
    exact hg.order_nodup.take

/-- There are as many registrations as tasks. -/
lemma length_registrations (hg : g.WellFormed) (launch : Launcher) (run : RunId) :
    (Plan.ofGraph g launch run).registrations.length = g.size := by
  have hlength := congrArg List.length (Plan.registrations_ofGraph g launch run)
  rw [List.length_map, List.length_map] at hlength
  rw [hlength, ← List.length_map (·.id), hg.map_id_orderedTasks, hg.order_perm.length_eq,
    List.length_map]
  rfl

/-- **A snapshot knows the first tasks of a graph**, at least as many as the coordinator takes at
once, or all.

**Proof sketch.** The slot begins with all tasks. A snapshot that is published is the state after a
first part of the events, which begin with the registrations, and nothing was published before the
first batch was taken. -/
theorem Reached.keys_of_mem_snapshots (hg : g.WellFormed)
    (h : Reached (Plan.ofGraph g launch run) interval world m) {s : SystemState}
    (hs : s ∈ m.snapshots) : ∃ n, min batchSize g.size ≤ n ∧ s.tasks.keys = g.order.take n := by
  rcases h.mem_snapshots hs with rfl | hs
  · refine ⟨g.order.length, ?_, ?_⟩
    · rw [hg.order_perm.length_eq, List.length_map]
      exact Nat.min_le_right _ _
    · rw [keys_registered hg, List.take_length]
  · obtain ⟨taken, marks, hp⟩ := h.publishes
    rw [hp.published_eq] at hs
    obtain ⟨n, hn, rfl⟩ := List.mem_map.1 hs
    have hleast := hp.least_le_mark n hn
    rw [length_registrations hg] at hleast
    exact ⟨n, hleast, h.keys_stateAt hg n⟩

/-! ### Graphs that are larger than a batch -/

/-- **A batch is published before the rest is taken**, if the queue is served first and the ticker
after it: the first batch of tasks replaces all tasks in the slot. -/
theorem snapshots_receive_tick (hg : g.WellFormed) (launch : Launcher) (run : RunId)
    (interval : Nat) (world : Machine) (hsize : batchSize < g.size) :
    let p := Plan.ofGraph g launch run
    let m := (start p interval world).run p [.receive, .tick]
    ∃ s, m.snapshots = [s, s] ∧ s.tasks.keys = g.order.take batchSize := by
  intro p m
  have hstart : Reached p interval world (start p interval world) := .refl
  obtain ⟨b, hb⟩ := start_coordinator p interval world
  have hc : m.coordinator =
      ((start p interval world).coordinator.receive world.now).tick world.now := by
    have hnow : (start p interval world).now = world.now := start_now
    rw [← hnow]
    rfl
  have hqueue : p.registrations.map (·.1) ≠ [] := by
    intro hnil
    have hlength := length_registrations hg launch run
    rw [← List.length_map (·.1), hnil, List.length_nil] at hlength
    omega
  obtain ⟨hpub, hslot⟩ := Coordinator.tick_receive_queued hqueue interval world.now
    (world.coordinator.slot.put (registered p)) b
  refine ⟨stateAt (start p interval world).events batchSize, ?_, hstart.keys_stateAt hg _⟩
  rw [snapshots, hc, hb, hpub, hslot, events_start]
  rfl

/-- **Every snapshot knows every task, whatever happens, of exactly the graphs that are no larger
than a batch.** Of a larger graph a snapshot knows the first tasks, at least as many as a batch has.

**Proof sketch.** The registrations are the first events of the queue, and the first batch takes as
many of them as fit (`Reached.keys_of_mem_snapshots`). In a graph that is larger than a batch, a
tick right after the first batch publishes a snapshot without the last tasks
(`snapshots_receive_tick`). -/
theorem snapshots_know_all_iff {tasks : List TaskDefinition} (hg : TaskGraph.build tasks = .ok g)
    (launch : Launcher) (run : RunId) (interval : Nat) (world : Machine) :
    let p := Plan.ofGraph g launch run
    (∀ actions, ∀ s ∈ ((start p interval world).run p actions).snapshots,
      ∃ n, min batchSize g.size ≤ n ∧ s.tasks.keys = g.order.take n) ∧
    ((∀ actions, ∀ s ∈ ((start p interval world).run p actions).snapshots,
      s.tasks.keys = g.order) ↔ g.size ≤ batchSize) := by
  intro p
  have hwf := TaskGraph.wellFormed_of_build hg
  have hsome : ∀ actions, ∀ s ∈ ((start p interval world).run p actions).snapshots,
      ∃ n, min batchSize g.size ≤ n ∧ s.tasks.keys = g.order.take n :=
    fun actions s hs => (reached_run actions).keys_of_mem_snapshots hwf hs
  have hlength : g.order.length = g.size := by
    rw [hwf.order_perm.length_eq, List.length_map, TaskGraph.size]
  refine ⟨hsome, fun hall => ?_, fun hsize actions s hs => ?_⟩
  · by_contra hlarge
    obtain ⟨s, hs, hkeys⟩ :=
      snapshots_receive_tick hwf launch run interval world (Nat.lt_of_not_le hlarge)
    have horder := hall [.receive, .tick] s (by rw [hs]; exact List.mem_cons_self)
    have hcount := congrArg List.length (hkeys.symm.trans horder)
    rw [List.length_take, hlength] at hcount
    omega
  · obtain ⟨n, hn, hkeys⟩ := hsome actions s hs
    rw [hkeys, List.take_of_length_le]
    omega

/-- Of the graph of two tasks the first snapshot knows both. -/
theorem both_known_at_once : TaskGraph.build chainTasks = .ok chainGraph ∧
    let m := (start chainPlan 50 (.world ⟨1, []⟩)).run chainPlan [.receive, .tick]
    m.snapshots.length = 2 ∧ ∀ s ∈ m.snapshots, s.tasks.keys = [⟨"a"⟩, ⟨"b"⟩] := by
  have hg : TaskGraph.build chainTasks = .ok chainGraph := rfl
  have hknown := snapshots_know_all_iff hg (fun _ _ => .error "") default 50 (.world ⟨1, []⟩)
  exact ⟨hg, by decide +kernel, hknown.2.2 (by decide) [.receive, .tick]⟩

/-- As many tasks as are given, without dependencies; they are called `x`, `xx`, `xxx` and so on. -/
def wideTasks (count : Nat) : List TaskDefinition :=
  (List.range count).map fun i =>
    .ofComputation ⟨String.ofList (List.replicate (i + 1) 'x')⟩ fun _ => .finish (.ok .null)

/-- There are as many tasks as asked for. -/
lemma length_wideTasks (count : Nat) : (wideTasks count).length = count := by
  rw [wideTasks, List.length_map, List.length_range]

/-- All tasks have names of their own. -/
lemma nodup_wideTasks (count : Nat) : ((wideTasks count).map (·.id)).Nodup := by
  rw [wideTasks, List.map_map]
  refine List.Nodup.map (fun i k h => ?_) List.nodup_range
  have htext : String.ofList (List.replicate (i + 1) 'x') =
      String.ofList (List.replicate (k + 1) 'x') := congrArg TaskId.text h
  have hlength := congrArg List.length (String.ofList_injective htext)
  rw [List.length_replicate, List.length_replicate] at hlength
  omega

/-- One task more than a batch: the run begins with all of them in the slot, and then the slot and
the callback get a snapshot that knows one task less. -/
theorem snapshot_misses_task : ∃ g, TaskGraph.build (wideTasks 1025) = .ok g ∧ g.size = 1025 ∧
    let p := Plan.ofGraph g (fun _ _ => .error "") default
    (registered p).tasks.keys.length = 1025 ∧
      ∃ s, ((start p 50 (.world ⟨1, []⟩)).run p [.receive, .tick]).snapshots = [s, s] ∧
        s.tasks.keys.length = 1024 := by
  have hdeps : ∀ t ∈ wideTasks 1025, t.dependencies = [] := by
    intro t ht
    obtain ⟨i, -, rfl⟩ := List.mem_map.1 ht
    rfl
  have hbuild := TaskGraph.build_of_independent (nodup_wideTasks 1025) hdeps
  have hwf := TaskGraph.wellFormed_of_build hbuild
  obtain ⟨s, hs, hkeys⟩ := snapshots_receive_tick hwf (fun _ _ => .error "") default 50
    (.world ⟨1, []⟩) (by rw [TaskGraph.size, length_wideTasks]; decide)
  refine ⟨_, hbuild, ?_, ?_, s, hs, ?_⟩
  · rw [TaskGraph.size, length_wideTasks]
  · rw [keys_registered hwf, List.length_map, length_wideTasks]
  · rw [hkeys, List.length_take, List.length_map, length_wideTasks]
    decide

end Machine

end Taskflow
