import Taskflow.Proofs.Run.GraphPlan
import Taskflow.Proofs.Run.Performing
set_option autoImplicit false

/-!
# All runs settle alike

A run of a graph whose work does the same in every run, and that is not interrupted, ends in the
state that the tasks come to one after the other. However many slots there are and however the steps
interleave, only the times differ, and which one of several failed dependencies a blocked task
names.

## Main results

* `Machine.Reached.decided` — when all jobs have ended, every task is decided by its dependencies.
* `Machine.settles_as_sequential` — the state of a run that is over, as a whole and task by task.

## Design

No two runs are compared. Both the state of a run that is over and the state after the tasks one by
one are decided (`TaskGraph.Decided`), and decided states have the same outline.
-/

namespace Taskflow

namespace Plan

variable {g : TaskGraph} {launch : Launcher} {run : RunId} {b : Behaviour}

/-- Where the work of a graph does what is given, and nothing of that is an interrupt, no
computation comes to one. -/
lemma ends_of_performs (hg : g.WellFormed)
    (hb : ∀ t ∈ g.tasks, t.Performs launch (b t.id))
    (hplain : ∀ t ∈ g.tasks, ∀ n, (b t.id n).result ≠ .error .interrupted) :
    (ofGraph g launch run).Ends fun e => e ≠ .fail .interrupted := by
  intro i j hj behaviour hwork n
  obtain ⟨t, ht, -, rfl⟩ := (getElem?_jobs_ofGraph_iff hg).1 hj
  have hperf := hb t ht
  have hwork : t.work = .computation behaviour := hwork
  rw [TaskDefinition.Performs, hwork] at hperf
  refine (hperf n).allEndings.mono ?_
  rintro e rfl hint
  exact hplain t ht n (Performance.result_of_ending_fail hint.symm)

end Plan

namespace Machine

variable {g : TaskGraph} {launch : Launcher} {run : RunId} {b : Behaviour} {j : Job} {k : Nat}
  {m : Machine} {p : Plan} {interval limit : Nat} {world : Machine}

/-- A task has succeeded, when all jobs have ended, if others see its job as succeeded. -/
lemma Reached.hasSucceeded_iff (hslots : Slots.ofLimit? limit = .ok world.slots) (hp : p.Linked)
    (h : Reached p interval world m) (hall : m.allEnded = true) (hj : p.jobs[k]? = some j) :
    (SystemState.empty.fold m.events).hasSucceeded j.task.id = true ↔
      m.outcomeOf? k = some .succeeded := by
  obtain ⟨a, ha⟩ := h.phaseOf?_of_job hj
  obtain ⟨cs, htold, -, hstate⟩ := h.get?_fold_events hslots hp hj ha
  rw [SystemState.hasSucceeded, hstate, Option.any_some, decide_eq_true_eq]
  exact succeeded_iff_of_told htold ha (allEnded_iff.1 hall k a ha) _ _

/-- The dependencies of a task have all succeeded if its job has seen them succeed. -/
lemma Reached.all_hasSucceeded_iff (hslots : Slots.ofLimit? limit = .ok world.slots)
    (hp : p.Linked) (h : Reached p interval world m) (hall : m.allEnded = true)
    (hj : p.jobs[k]? = some j) :
    j.task.dependencies.all (SystemState.empty.fold m.events).hasSucceeded = true ↔
      m.AllSucceeded j := by
  rw [List.all_eq_true]
  constructor
  · intro hsucc d hd
    obtain ⟨j', hj', hid⟩ := (hp.mem_awaited hj d).1 hd
    exact (h.hasSucceeded_iff hslots hp hall hj').1 (hsucc _ hid)
  · intro hsucc id hid
    obtain ⟨d, j', hj', rfl⟩ := hp.declared hj id hid
    exact (h.hasSucceeded_iff hslots hp hall hj').2
      (hsucc d ((hp.mem_awaited hj d).2 ⟨j', hj', hid⟩))

/-- **When all jobs have ended, every task is decided by its dependencies.**

**Proof sketch.** A job that was not turned away has nothing left to tell, so what it has told is
the execution of its task, and it has seen all its dependencies succeed. A job that was turned away
can name a dependency that did not succeed, because nobody is interrupted. -/
theorem Reached.decided (hslots : Slots.ofLimit? limit = .ok world.slots) (hg : g.WellFormed)
    (h : Reached (Plan.ofGraph g launch run) interval world m)
    (hb : ∀ t ∈ g.tasks, t.Performs launch (b t.id))
    (hplain : ∀ t ∈ g.tasks, ∀ n, (b t.id n).result ≠ .error .interrupted)
    (hm : m.interrupted = false) (hall : m.allEnded = true) :
    g.Decided b (SystemState.empty.fold m.events) := by
  intro t ht
  have hp := Plan.linked_ofGraph hg launch run
  obtain ⟨k, -, hj⟩ := Plan.exists_job_of_mem hg launch run ht
  obtain ⟨a, ha⟩ := h.phaseOf?_of_job hj
  obtain ⟨cs, htold, hcs, hstate⟩ := h.get?_fold_events hslots hp hj ha
  have hended := allEnded_iff.1 hall k a ha
  have hgated := h.gated hslots hj ha
  have hdeps : t.dependencies.all (SystemState.empty.fold m.events).hasSucceeded = true ↔
      m.AllSucceeded (Plan.jobOf g run t) := h.all_hasSucceeded_iff hslots hp hall hj
  refine ⟨cs, hstate, ?_⟩
  rcases h.continues hslots hj (hb t ht) (hplain t ht) hm ha with
    haway | ⟨cs', rest, hcs', hrest, hexec⟩
  · cases a with
    | ended outcome result =>
      cases result with
      | some r => cases haway
      | none =>
        rcases htold with ⟨rfl, d, rfl⟩ | ⟨rfl, -⟩
        · rcases hgated with ⟨-, d', hd', hfail, -⟩ | ⟨hcut, -⟩
          · rw [if_neg fun hsucc => hfail.not_allSucceeded hd' (hdeps.1 hsucc)]
            rfl
          · cases hcut
        · have hout : m.outcomeOf? k = some .interrupted := by rw [outcomeOf?, ha]
          exact absurd hout (h.outcome_ne_interrupted hslots hm hp
            (Plan.ends_of_performs hg hb hplain) k)
    | crashed message => cases haway
    | _ => cases hended
  · obtain rfl : cs' = cs := List.append_cancel_left (hcs'.symm.trans hcs)
    cases a with
    | ended outcome result =>
      cases result with
      | none => exact hrest.elim
      | some r =>
        obtain rfl : rest = [] := hrest
        rw [List.append_nil] at hexec
        exact hexec.trans (if_pos (hdeps.2 hgated)).symm
    | crashed message => exact hrest.elim
    | _ => cases hended

/-- The tasks of a run are in the order of the graph. -/
lemma Reached.keys_fold_events (h : Reached (Plan.ofGraph g launch run) interval world m)
    (b : Behaviour) :
    (SystemState.empty.fold m.events).tasks.keys = (g.sequential b).tasks.keys := by
  obtain ⟨es, hevents, hnot⟩ := h.events_eq
  rw [hevents, SystemState.fold_append, SystemState.keys_fold _ hnot,
    Plan.registrations_ofGraph, TaskGraph.keys_sequential]

/-- **All runs settle as if the tasks were taken one after the other.** For every graph that is
built, every limit and interval, and work that does the same in every run and never says that it was
interrupted: if a run is not interrupted and is over, its state has the outline of the sequential
state. A task has succeeded if it and all those on which it depends, directly or not, have an
attempt within their policies that succeeds; it has failed if they all have one but itself; and
otherwise it is blocked, and was never started.

**Proof sketch.** When a run is over and was not interrupted, every task is decided by its
dependencies (`Reached.decided`): either all of them have succeeded, and its job has told the
execution of the task, or one of them has not, and the task is blocked. The sequential state is
decided in the same way (`TaskGraph.decided_sequential`), and what is decided in the same way has
the same outline (`Decided.outline_eq`). -/
theorem settles_as_sequential {tasks : List TaskDefinition} (hg : TaskGraph.build tasks = .ok g)
    (hslots : Slots.ofLimit? limit = .ok world.slots)
    (hb : ∀ t ∈ g.tasks, t.Performs launch (b t.id))
    (hplain : ∀ t ∈ g.tasks, ∀ n, (b t.id n).result ≠ .error .interrupted) (run : RunId)
    (interval : Nat) (actions : List Action) :
    let p := Plan.ofGraph g launch run
    let m := (start p interval world).run p actions
    m.interrupted = false → m.coordinator.isDone = true →
      m.coordinator.state.outline = (g.sequential b).outline ∧
      ∀ t ∈ g.tasks, ∃ u, m.coordinator.state.get? t.id = some u ∧
        (u.status = .succeeded ↔ g.DependenciesAchieve b t ∧ t.Achieves (b t.id)) ∧
        (u.status = .failed ↔ g.DependenciesAchieve b t ∧ ¬ t.Achieves (b t.id)) ∧
        (¬ g.DependenciesAchieve b t →
          u.status = .pending ∧ u.blockedBy.isSome = true ∧ u.startedAt = none) := by
  intro p m hm hdone
  have hwf := TaskGraph.wellFormed_of_build hg
  have h : Reached p interval world m := reached_run actions
  have htracks := h.tracks
  have hall : m.allEnded = true := h.allEnded_of_isClosed (htracks.of_isDone hdone).1
  have hdecided := h.decided hslots hwf hb hplain hm hall
  have hsequential := TaskGraph.decided_sequential hwf b
  rw [htracks.state_eq_of_isDone hdone]
  refine ⟨SystemState.outline_ext (SystemState.keyed_empty.fold _) (h.keys_fold_events b)
    fun id => ?_, fun t ht => hdecided.status_iff hwf ht⟩
  by_cases hid : ∃ t ∈ g.tasks, t.id = id
  · obtain ⟨t, ht, rfl⟩ := hid
    exact hdecided.outline_eq hwf ht hsequential
  · rw [h.get?_fold_events_of_forall_ne, TaskGraph.get?_sequential_of_forall_ne]
    · exact fun t ht heq => hid ⟨t, hwf.mem_orderedTasks.1 ht, heq⟩
    · intro k j hj heq
      obtain ⟨t, ht, -, rfl⟩ := (Plan.getElem?_jobs_ofGraph_iff hwf).1 hj
      exact hid ⟨t, ht, heq⟩

end Machine

/-! ### A run that settles -/

/-- Task `a` fails once and then succeeds, `b` depends on it and fails, and `c` depends on `b`. -/
def relayTasks : List TaskDefinition :=
  [{ TaskDefinition.ofComputation ⟨"a"⟩ (fun
        | 0 => .emit (.stdout, "try") (.finish (.fail (.failed "boom")))
        | _ + 1 => .emit (.stdout, "try") (.finish (.ok .null))) with
      retryPolicy := some ⟨.ofNat 1, .ofMillis 10⟩ },
    (TaskDefinition.ofComputation ⟨"b"⟩ fun _ => .finish (.fail (.failed "boom"))).dependsOn ⟨"a"⟩,
    (TaskDefinition.ofComputation ⟨"c"⟩ fun _ => .finish (.ok .null)).dependsOn ⟨"b"⟩]

/-- The graph of the three tasks. -/
def relayGraph : TaskGraph := ⟨relayTasks, [⟨"a"⟩, ⟨"b"⟩, ⟨"c"⟩]⟩

/-- What the attempts of the three tasks do. -/
def relayBehaviour : Behaviour := fun id n =>
  match id.text, n with
  | "a", 0 => ⟨[(.stdout, "try")], .error (.failed "boom")⟩
  | "a", _ + 1 => ⟨[(.stdout, "try")], .ok .null⟩
  | "b", _ => ⟨[], .error (.failed "boom")⟩
  | _, _ => ⟨[], .ok .null⟩

/-- All three tasks go on as far as they can, one after the other. -/
def relayActions : List Action :=
  List.replicate 9 (.move 0 {}) ++ .advance 10 :: List.replicate 9 (.move 0 {}) ++
    .arrive 1 0 :: List.replicate 12 (.move 1 {}) ++
    .arrive 2 1 :: List.replicate 3 (.move 2 {}) ++ [.receive, .receive]

/-- The machine after these actions, with one slot. -/
def relayRun : Machine :=
  (Machine.start (.ofGraph relayGraph (fun _ _ => .error "") default) 1 (Machine.world ⟨1, []⟩)).run
    (.ofGraph relayGraph (fun _ _ => .error "") default) relayActions

/-- The computations of the three tasks do not break down. -/
lemma neverPanics_relay : (Plan.ofGraph relayGraph (fun _ _ => .error "") default).NeverPanics := by
  intro i j hj behaviour hwork n
  match i with
  | 0 => cases hj; cases hwork; cases n <;> exact .emit _ _ (.finish _ (by simp))
  | 1 => cases hj; cases hwork; exact .finish _ (by simp)
  | 2 => cases hj; cases hwork; exact .finish _ (by simp)
  | i + 3 => cases hj

namespace Machine

/-- The run settles as the sequential state, in which `c` is still pending. -/
theorem relay_settles :
    relayRun.coordinator.state.outline = (relayGraph.sequential relayBehaviour).outline ∧
      ∃ u, relayRun.coordinator.state.get? ⟨"c"⟩ = some u ∧ u.status = .pending := by
  have hbuild : TaskGraph.build relayTasks = .ok relayGraph := rfl
  have hslots : Slots.ofLimit? 1 = .ok (Machine.world ⟨1, []⟩).slots := rfl
  have hperf : ∀ t ∈ relayGraph.tasks,
      t.Performs (fun _ _ => .error "") (relayBehaviour t.id) := by
    refine List.forall_mem_cons.2 ⟨fun n => ?_, List.forall_mem_cons.2 ⟨fun n => .finish _,
      List.forall_mem_singleton.2 fun n => .finish _⟩⟩
    cases n <;> exact .emit _ (.finish _)
  have hplain : ∀ t ∈ relayGraph.tasks, ∀ n,
      (relayBehaviour t.id n).result ≠ .error .interrupted := by
    refine List.forall_mem_cons.2 ⟨fun n => ?_, List.forall_mem_cons.2 ⟨fun n => ?_,
      List.forall_mem_singleton.2 fun n => ?_⟩⟩
    · intro h
      cases n <;> cases h
    · intro h
      cases h
    · intro h
      cases h
  have hrun : relayRun.interrupted = false := by decide +kernel
  have hdone : relayRun.coordinator.isDone = true := by decide +kernel
  obtain ⟨houtline, htasks⟩ :=
    settles_as_sequential hbuild hslots hperf hplain default 1 relayActions hrun hdone
  refine ⟨houtline, ?_⟩
  obtain ⟨u, hu, -, -, hpending⟩ := htasks relayTasks[2] (by simp [relayGraph, relayTasks])
  refine ⟨u, hu, (hpending fun hall => ?_).1⟩
  obtain ⟨n, -, value, hvalue⟩ :=
    hall relayTasks[1] (by simp [relayGraph, relayTasks]) (.single (by decide))
  cases hvalue

end Machine

end Taskflow
