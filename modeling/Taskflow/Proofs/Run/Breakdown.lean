import Taskflow.Proofs.Run.Agreement
set_option autoImplicit false

/-!
# Work that breaks down

A computation that breaks down takes its job with it: the slot is given back and those that depend
on the job see it as failed, but its task has told no end. So when the run is over the state still
shows the task as running, there is no outcome of it, and the slot may long have gone to another
task. What is known of all other tasks is not affected.

## Main results

* `Machine.broken_subset_of_steps` — work that has broken down stays so.
* `Machine.accounts_with_breakdowns` — the accounts of a run in which work may break down.
* `Machine.broken_tasks_stay_running` — a run that ends with two running tasks and one slot.
-/

namespace Taskflow

open Relation TaskChange

namespace Machine

variable {p : Plan} {j : Job} {a b : Phase} {k : Nat} {m m' : Machine} {c : Option TaskChange}
  {interval limit : Nat} {world : Machine}

/-- From where its work has broken down, a job does not come away. -/
lemma Turn.isBroken (h : Turn p j m a c b) (ha : a.isBroken = true) : b.isBroken = true := by
  cases h with
  | stay => exact ha
  | grant | hear => cases ha
  | move h =>
    cases h with
    | crash => rfl
    | _ => cases ha

/-- **Work that has broken down stays so.** -/
theorem broken_subset_of_steps (hslots : Slots.ofLimit? limit = .ok world.slots)
    (hr : Reached p interval world m) (h : ReflTransGen (Step p) m m') : m.broken ⊆ m'.broken := by
  intro k hk
  obtain ⟨a, ha, hbroken⟩ := exists_phase_of_mem_broken hk
  obtain ⟨b, hb, hbroken'⟩ := hr.exists_phase_of_steps hslots h (I := fun b => b.isBroken = true)
    (fun hturn => hturn.isBroken) ha hbroken
  exact (mem_broken hb).2 hbroken'

/-- What any first part of the queue folds to shows at most as many running tasks as there are
slots, not counting those whose work has broken down in the end. -/
lemma Reached.count_running_prefix_le (hslots : Slots.ofLimit? limit = .ok world.slots)
    (h : Reached p interval world m) {es : List TaskEvent} (hes : es <+: m.events) :
    (SystemState.empty.fold es).count .running ≤ max limit 1 + m.broken.card := by
  rcases h.of_events_prefix hes with hreg | ⟨m₀, h₀, hsteps, rfl⟩
  · rw [SystemState.count_running_of_registered hreg]
    exact Nat.zero_le _
  · have hqueue : m₀.queueOf (fun _ => true) = m₀.events := by
      rw [queueOf, List.filter_eq_self.2 fun _ _ => rfl]
      rfl
    have hle := h₀.count_running_le_add hslots fun _ => true
    rw [hqueue] at hle
    have hcard := Finset.card_le_card (broken_subset_of_steps hslots h₀ hsteps)
    exact hle.trans (Nat.add_le_add_left hcard _)

variable {g : TaskGraph} {launch : Launcher} {run : RunId}

/-- What is known at the end of a run of a task whose work may have broken down. -/
lemma Reached.accounts_or_broken (hslots : Slots.ofLimit? limit = .ok world.slots)
    (hp : p.Linked) (h : Reached p interval world m) (hdone : m.coordinator.isDone = true)
    (hj : p.jobs[k]? = some j) :
    let r := GraphResult.ofMachine p m
    ∃ u, r.state.get? j.task.id = some u ∧ u.Consistent ∧
      (k ∈ m.broken ∧ u.IsUnderway ∧ r.outcome? j.task.id = none ∨
        k ∉ m.broken ∧ ∃ outcome, r.outcome? j.task.id = some outcome ∧
          Agree outcome u (r.result? j.task.id)) := by
  intro r
  obtain ⟨u, hu, hconsistent, ⟨message, ha, hunder⟩ | ⟨outcome, result, ha, hagree⟩⟩ :=
    h.verdict hslots hp hdone hj
  · refine ⟨u, hu, hconsistent, .inl ⟨(mem_broken ha).2 rfl, hunder, ?_⟩⟩
    refine Option.eq_none_iff_forall_ne_some.2 fun outcome hout => ?_
    obtain ⟨result, hend⟩ := (GraphResult.outcome?_eq_some_iff hp hj).1 hout
    rw [ha] at hend
    cases hend
  · refine ⟨u, hu, hconsistent, .inr ⟨fun hk => ?_, outcome,
      (GraphResult.outcome?_eq_some_iff hp hj).2 ⟨result, ha⟩, ?_⟩⟩
    · cases (mem_broken ha).1 hk
    · rw [GraphResult.result?_of_ended hp hj ha]
      exact hagree

/-- **The accounts of a run in which work may break down.** For every graph that is built, every
limit, all work and every sequence of actions after which the run is over:
* a task is still shown as running exactly if its work broke down, and exactly then it has no
  outcome; the accounts of every other task agree;
* in what any first part of the queue folds to, at most as many tasks are running as the limit
  says, not counting those whose work broke down;
* if the run is accepted in strict mode, every task that was started has succeeded, or its work
  broke down;
* where no computation breaks down, none of this is about any task.

**Proof sketch.** When the run is over, each job has ended, and its accounts agree, or its work
broke down; then it has told its start, and nothing after its last attempt, so its task is still
shown as running (`Reached.accounts_or_broken`). A running task holds a slot, or its job is broken,
and broken jobs stay so (`Reached.count_running_prefix_le`). -/
theorem accounts_with_breakdowns {tasks : List TaskDefinition}
    (hg : TaskGraph.build tasks = .ok g) (hslots : Slots.ofLimit? limit = .ok world.slots)
    (launch : Launcher) (run : RunId) (interval : Nat) (actions : List Action) (duration : Nat)
    (hdone : ((start (Plan.ofGraph g launch run) interval world).run
      (Plan.ofGraph g launch run) actions).coordinator.isDone = true) :
    let p := Plan.ofGraph g launch run
    let m := (start p interval world).run p actions
    let r := GraphResult.ofMachine p m
    let s := RunSummary.ofResult run duration r
    (∀ t ∈ g.tasks, ∃ i u, g.order[i]? = some t.id ∧ r.state.get? t.id = some u ∧
      (u.status = .running ↔ i ∈ m.broken) ∧ (r.outcome? t.id = none ↔ i ∈ m.broken) ∧
      (i ∉ m.broken → ∃ outcome, r.outcome? t.id = some outcome ∧
        Agree outcome u (r.result? t.id))) ∧
      (∀ es, es <+: m.events →
        (SystemState.empty.fold es).count .running ≤ max limit 1 + m.broken.card) ∧
      (s.orFail = .ok s → ∀ id u, r.state.get? id = some u → u.startedAt.isSome = true →
        u.status = .succeeded ∨ u.status = .running) ∧
      (p.NeverPanics → m.broken = ∅) := by
  intro p m r s
  have hwf := TaskGraph.wellFormed_of_build hg
  have hp : p.Linked := Plan.linked_ofGraph hwf launch run
  have h : Reached p interval world m := reached_run actions
  refine ⟨fun t ht => ?_, fun es => h.count_running_prefix_le hslots, fun hok id u hu hstart => ?_,
    fun hpanic => h.broken_eq_empty hslots hpanic⟩
  · obtain ⟨i, hi, hj⟩ := Plan.exists_job_of_mem hwf launch run ht
    obtain ⟨u, hu, -, ⟨hbroken, hunder, hnone⟩ | ⟨hwhole, outcome, hout, hagree⟩⟩ :=
      h.accounts_or_broken hslots hp hdone hj
    · exact ⟨i, u, hi, hu, iff_of_true hunder.status_eq hbroken, iff_of_true hnone hbroken,
        fun hwhole => absurd hbroken hwhole⟩
    · have hsome : r.outcome? t.id ≠ none := fun hnone => by
        have hout : r.outcome? t.id = some outcome := hout
        rw [hnone] at hout
        cases hout
      exact ⟨i, u, hi, hu, iff_of_false hagree.status_ne_running hwhole,
        iff_of_false hsome hwhole, fun _ => ⟨outcome, hout, hagree⟩⟩
  · have hkeyed : r.state.Keyed := (h.keys_perm hslots hwf hdone).1
    have hfailed : u.status ≠ .failed := by
      rw [orFail_eq_ok_iff] at hok
      have hlength : s.failureCount = r.state.count .failed :=
        r.state.length_idsWithStatus .failed
      exact hkeyed.count_eq_zero_iff.1 (hlength.symm.trans hok) id u hu
    obtain ⟨k, j, hj, rfl⟩ := h.exists_job_of_get? hdone hu
    obtain ⟨v, hv, hconsistent, -⟩ := h.verdict hslots hp hdone hj
    obtain rfl := Option.some.inj (hv.symm.trans hu)
    have hpending := hconsistent.isSome_startedAt_iff.1 hstart
    cases hstatus : v.status with
    | pending => exact absurd hstatus hpending
    | running => exact .inr rfl
    | succeeded => exact .inl rfl
    | failed => exact absurd hstatus hfailed

/-- Two tasks that break down, one at once and one a little later. -/
def wreckTasks : List TaskDefinition :=
  [.ofComputation ⟨"a"⟩ fun _ => .finish (.panic "boom"),
    .ofComputation ⟨"b"⟩ fun _ => .sleep (.ofMillis 50) fun _ => .finish (.panic "boom")]

/-- The graph of the two tasks. -/
def wreckGraph : TaskGraph := ⟨wreckTasks, [⟨"a"⟩, ⟨"b"⟩]⟩

/-- The jobs of the two tasks. -/
def wreckPlan : Plan := .ofGraph wreckGraph (fun _ _ => .error "") default

/-- Task `a` breaks down, then task `b` does with the slot that was given back. -/
def wreckActions : List Action :=
  List.replicate 9 (.move 0 {}) ++ List.replicate 7 (.move 1 {}) ++ .advance 50 ::
    List.replicate 4 (.move 1 {}) ++ [.receive, .receive]

/-- The machine after these actions, with one slot. -/
def wreckRun : Machine :=
  (start wreckPlan 1 (Machine.world ⟨1, []⟩)).run wreckPlan wreckActions

/-- **A task whose work breaks down is lost**: with one slot, a run is over in whose last state two
tasks are running; neither has an outcome, and strict mode accepts the run. -/
theorem broken_tasks_stay_running :
    TaskGraph.build wreckTasks = .ok wreckGraph ∧ wreckRun.coordinator.isDone = true ∧
      let r := GraphResult.ofMachine wreckPlan wreckRun
      let s := RunSummary.ofResult default wreckRun.now r
      r.state.count .running = 2 ∧ r.outcomes = [] ∧
        max 1 1 < (SystemState.empty.fold wreckRun.events).count .running ∧
        s.orFail = .ok s := by
  refine ⟨rfl, by decide +kernel, by decide +kernel, by decide +kernel, by decide +kernel, ?_⟩
  rw [orFail_eq_ok_iff]
  refine (SystemState.length_idsWithStatus _ _).trans ?_
  decide +kernel

/-- Task `a`, which is shown as running in the end, is known as one whose work broke down. -/
theorem wreck_is_known :
    ∃ i ∈ wreckRun.broken, wreckGraph.order[i]? = some wreckTasks[0].id := by
  have hbuild : TaskGraph.build wreckTasks = .ok wreckGraph := rfl
  have hslots : Slots.ofLimit? 1 = .ok (Machine.world ⟨1, []⟩).slots := rfl
  have hdone : wreckRun.coordinator.isDone = true := by decide +kernel
  obtain ⟨htasks, -⟩ := accounts_with_breakdowns hbuild hslots (fun _ _ => .error "") default 1
    wreckActions 50 hdone
  obtain ⟨i, u, hi, hu, hrunning, -⟩ := htasks wreckTasks[0] (by simp [wreckGraph, wreckTasks])
  have hstatus : ((GraphResult.ofMachine wreckPlan wreckRun).state.get? wreckTasks[0].id).map
      (·.status) = some .running := by decide +kernel
  have hsome := hstatus.symm.trans (congrArg (Option.map TaskState.status) hu)
  exact ⟨i, hrunning.1 (Option.some.inj hsome).symm, hi⟩

end Machine

end Taskflow
