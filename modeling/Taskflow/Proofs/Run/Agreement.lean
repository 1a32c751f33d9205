import Taskflow.Proofs.Run.Settlement
import Taskflow.Proofs.Run.Standing
import Taskflow.Proofs.State.Tally
set_option autoImplicit false

/-!
# How a run ended, told in several ways

When a run is over there are three accounts of each task: the outcome of its job, the result with
which its execution came back, and what the state knows. They are made in different places, and
they tell the same. What is summed up from them adds up, and a run that nobody interrupted has no
failed task exactly if all its tasks succeeded.

## Main definitions

* `GraphResult.outcome?`, `GraphResult.result?` — the outcome and the result of a task.
* `Agree` — the three accounts of a task tell the same.

## Main results

* `Machine.Reached.verdict` — at the end of a run each job has broken down, or its accounts agree.
* `Machine.Reached.succeeded_of_none_failed` — where no task has failed, all have succeeded.
* `Machine.accounts_agree` — the accounts of a run of a graph, task by task and summed up.

## Design

That the accounts of a task agree follows from its last phase alone: `Settled` says what its job
has told, `Phase.Numbered` how many attempts a result counts. Only the last part looks at other
jobs. A task that did not succeed has a reason among those it depends on, or it failed itself.
-/

namespace Taskflow

open Relation TaskChange

/-! ### Three accounts of a task -/

/-- The outcome of a job, what is known of its task, and the result of its execution tell the
same. -/
structure Agree (outcome : NodeOutcome) (u : TaskState) (result : Option TaskResult) : Prop where
  succeeded_iff : outcome = .succeeded ↔ u.status = .succeeded
  succeeded_iff_result : outcome = .succeeded ↔
    ∃ r, result = some r ∧ r.outcome.isSuccess = true
  failed_iff : outcome = .failed ↔ u.status = .failed ∧
    ∃ r error command, result = some r ∧ r.outcome = .failure error command false
  blocked_iff : outcome = .blocked ↔ u.blockedBy.isSome = true
  of_blocked : outcome = .blocked → u.status = .pending ∧ result = none
  interrupted_iff : outcome = .interrupted ↔
    (u.status = .failed ∧
      ∃ r error command, result = some r ∧ r.outcome = .failure error command true) ∨
    (u.status = .pending ∧ u.blockedBy = none ∧ ∀ r, result = some r → r.attempts = 0)

namespace Agree

variable {cs : List TaskChange} {outcome : NodeOutcome} {u : TaskState}
  {result : Option TaskResult}

/-- A task that has come to its end has the accounts of its outcome. -/
lemma of_completed (hu : u.IsUnderway) (time : Timestamp) (r : TaskResult) :
    Agree (.ofTask r.outcome) (u.complete time r.outcome) (some r) := by
  have hnone := hu.blockedBy_eq
  obtain ⟨id, o, attempts⟩ := r
  cases o with
  | success value => constructor <;> simp [TaskState.complete, NodeOutcome.ofTask,
      TaskOutcome.isSuccess, hnone]
  | failure error command interrupted =>
    cases interrupted <;> constructor <;>
      simp [TaskState.complete, NodeOutcome.ofTask, TaskOutcome.isSuccess, hnone]

/-- **A job that has ended leaves accounts that agree.** -/
theorem of_settled {interrupted : Bool} {t : TaskDefinition} {name : String}
    (hs : Settled interrupted cs outcome result)
    (hn : (Phase.ended outcome result).Numbered t (cs.foldl TaskState.apply (.fresh t.id name))) :
    Agree outcome (cs.foldl TaskState.apply (.fresh t.id name)) result := by
  cases result with
  | none =>
    rcases hs with ⟨rfl, d, rfl⟩ | ⟨rfl, rfl⟩ <;>
      constructor <;> simp [TaskState.fresh, TaskState.apply]
  | some r =>
    rcases hs with ⟨rfl, rfl, -⟩ | ⟨rfl, hcs⟩
    · -- the task was not started, and its result counts no attempt
      obtain ⟨-, rfl⟩ := hn.resolve_right fun h => h.1 rfl
      constructor <;>
        simp [TaskState.fresh, TaskResult.notStarted, TaskOutcome.ofError, TaskOutcome.isSuccess]
    · obtain ⟨v, time, hv, heq⟩ := hcs.exists_isUnderway t.id name
      rw [heq]
      exact of_completed hv time r

/-- A task whose job has ended is not running. -/
lemma status_ne_running (h : Agree outcome u result) : u.status ≠ .running := by
  intro hrunning
  cases outcome with
  | succeeded => exact absurd (h.succeeded_iff.1 rfl) (by simp [hrunning])
  | failed => exact absurd (h.failed_iff.1 rfl).1 (by simp [hrunning])
  | blocked => exact absurd (h.of_blocked rfl).1 (by simp [hrunning])
  | interrupted =>
    rcases h.interrupted_iff.1 rfl with ⟨hfailed, -⟩ | ⟨hpending, -⟩
    · rw [hrunning] at hfailed; cases hfailed
    · rw [hrunning] at hpending; cases hpending

end Agree

/-! ### Outcomes and results of the tasks -/

namespace GraphResult

variable {p : Plan} {m : Machine} {i : Nat} {j : Job}

/-- The outcome of a task, if it has one. -/
def outcome? (r : GraphResult) (id : TaskId) : Option NodeOutcome := Table.lookup id r.outcomes

/-- The result of a task, if it has one. -/
def result? (r : GraphResult) (id : TaskId) : Option TaskResult := Table.lookup id r.results

/-- What is listed of the jobs under the identifiers of their tasks is listed once for each. -/
lemma nodup_keys {α : Type} (hp : p.Linked) {f : Job × JobState → Option (TaskId × α)}
    (hf : ∀ x y, f x = some y → y.1 = x.1.task.id) :
    (((p.jobs.toList.zip m.jobs.toList).filterMap f).map Prod.fst).Nodup := by
  have hids : (p.jobs.toList.map (·.task.id)).Nodup := by
    rw [List.nodup_iff_getElem?_ne_getElem?]
    intro i k hik hk heq
    obtain ⟨j, hj⟩ : ∃ j, p.jobs[k]? = some j :=
      ⟨_, Array.getElem?_eq_getElem (by simpa using hk)⟩
    rw [List.getElem?_map, List.getElem?_map, Array.getElem?_toList, Array.getElem?_toList, hj,
      Option.map_some] at heq
    obtain ⟨j', hj', hid⟩ := Option.map_eq_some_iff.1 heq
    exact absurd (hp.id_inj hj' hj hid) (Nat.ne_of_lt hik)
  -- what is listed comes from some of the pairs, and the pairs from the first so many jobs
  have hsub : ∀ (jobs : List Job) (states : List JobState),
      (((jobs.zip states).filterMap f).map Prod.fst).Sublist (jobs.map (·.task.id)) := by
    intro jobs
    induction jobs with
    | nil => exact fun _ => .slnil
    | cons j rest ih =>
      intro states
      cases states with
      | nil => exact List.nil_sublist _
      | cons s others =>
        rw [List.zip_cons_cons, List.map_cons]
        cases hx : f (j, s) with
        | none => rw [List.filterMap_cons_none hx]; exact (ih others).cons _
        | some y =>
          rw [List.filterMap_cons_some hx, List.map_cons, hf _ y hx]
          exact (ih others).cons_cons _
  exact (hsub _ _).nodup hids

/-- In a list without repeated keys, what is listed under a key is what is found under it. -/
lemma lookup_eq_some_iff {α : Type} {l : List (TaskId × α)} (hl : (l.map Prod.fst).Nodup)
    {id : TaskId} {a : α} : Table.lookup id l = some a ↔ (id, a) ∈ l :=
  ⟨fun h => Table.mem_entries_of_get? (t := ⟨l⟩) h,
    fun h => Table.get?_of_mem_entries (t := ⟨l⟩) hl h⟩

/-- No task has two outcomes. -/
lemma nodup_outcomes (hp : p.Linked) : ((ofMachine p m).outcomes.map Prod.fst).Nodup := by
  refine nodup_keys hp fun x y hxy => ?_
  simp only [outcomeOf] at hxy
  split at hxy <;> cases hxy
  rfl

/-- No task has two results. -/
lemma nodup_results (hp : p.Linked) : ((ofMachine p m).results.map Prod.fst).Nodup := by
  refine nodup_keys hp fun x y hxy => ?_
  simp only [resultOf] at hxy
  split at hxy <;> cases hxy
  rfl

/-- The result of a task is that of its job. -/
lemma mem_results_iff (hp : p.Linked) (hj : p.jobs[i]? = some j) {r : TaskResult} :
    (j.task.id, r) ∈ (ofMachine p m).results ↔
      ∃ outcome, m.phaseOf? i = some (.ended outcome (some r)) := by
  refine ⟨fun h => ?_, fun ⟨outcome, ha⟩ => mem_results_of_ended hj ha⟩
  obtain ⟨⟨j', s⟩, hmem, hres⟩ := List.mem_filterMap.1 h
  obtain ⟨k, hk, hs⟩ := mem_zip_jobs.1 hmem
  simp only [resultOf] at hres
  split at hres
  next outcome result hphase =>
    obtain ⟨hid, rfl⟩ := Prod.mk.inj (Option.some.inj hres)
    obtain rfl := hp.id_inj hk hj hid
    exact ⟨outcome, by rw [Machine.phaseOf?_of_state hs, hphase]⟩
  next => cases hres

/-- The outcome that is found for a task is that of its job. -/
lemma outcome?_eq_some_iff (hp : p.Linked) (hj : p.jobs[i]? = some j) {outcome : NodeOutcome} :
    (ofMachine p m).outcome? j.task.id = some outcome ↔
      ∃ result, m.phaseOf? i = some (.ended outcome result) :=
  (lookup_eq_some_iff (nodup_outcomes hp)).trans (mem_outcomes_iff hp hj)

/-- The result that is found for a task is that of its job. -/
lemma result?_of_ended (hp : p.Linked) (hj : p.jobs[i]? = some j) {outcome : NodeOutcome}
    {result : Option TaskResult} (ha : m.phaseOf? i = some (.ended outcome result)) :
    (ofMachine p m).result? j.task.id = result := by
  refine Option.ext fun r => ?_
  rw [result?, lookup_eq_some_iff (nodup_results hp), mem_results_iff hp hj]
  constructor
  · rintro ⟨o, ho⟩
    rw [ha] at ho
    cases ho
    rfl
  · rintro rfl
    exact ⟨outcome, ha⟩

end GraphResult

/-! ### The end of a run -/

namespace Machine

variable {p : Plan} {j : Job} {i k : Nat} {m : Machine} {interval limit : Nat} {world : Machine}

/-- When a run is over, all jobs have ended, and the state of the coordinator is that after all
events. -/
lemma Reached.of_isDone (h : Reached p interval world m) (hdone : m.coordinator.isDone = true) :
    m.allEnded = true ∧ m.coordinator.state = SystemState.empty.fold m.events := by
  obtain ⟨hclosed, -⟩ := h.tracks.of_isDone hdone
  exact ⟨h.allEnded_of_isClosed hclosed, h.tracks.state_eq_of_isDone hdone⟩

section Verdict

variable (hslots : Slots.ofLimit? limit = .ok world.slots) (hp : p.Linked)
  (h : Reached p interval world m) (hdone : m.coordinator.isDone = true)
include hslots hp h hdone

/-- **At the end of a run each job has broken down, or its accounts agree.** The task of one that
broke down is still under way as far as the state knows. -/
theorem Reached.verdict (hj : p.jobs[k]? = some j) : ∃ u,
    m.coordinator.state.get? j.task.id = some u ∧ u.Consistent ∧
      ((∃ message, m.phaseOf? k = some (.crashed message) ∧ u.IsUnderway) ∨
        ∃ outcome result, m.phaseOf? k = some (.ended outcome result) ∧
          Agree outcome u result) := by
  obtain ⟨hall, hstate⟩ := h.of_isDone hdone
  obtain ⟨a, ha⟩ := h.phaseOf?_of_job hj
  obtain ⟨cs, -, htold, hnumbered, hconsistent, hget⟩ := h.exists_standing hslots hp hj ha
  refine ⟨_, hstate ▸ hget, hconsistent, ?_⟩
  have hended := allEnded_iff.1 hall k a ha
  cases a with
  | ended outcome result => exact .inr ⟨outcome, result, ha, .of_settled htold hnumbered⟩
  | crashed message => exact .inl ⟨message, ha, TaskChange.Underway.isUnderway htold _ _⟩
  | _ => cases hended

/-- Where no computation breaks down, the accounts of every job agree at the end of a run. -/
lemma Reached.agreement (hpanic : p.NeverPanics) (hj : p.jobs[k]? = some j) :
    ∃ u outcome result, m.coordinator.state.get? j.task.id = some u ∧ u.Consistent ∧
      m.phaseOf? k = some (.ended outcome result) ∧ Agree outcome u result := by
  obtain ⟨u, hu, hconsistent, ⟨message, ha, -⟩ | ⟨outcome, result, ha, hagree⟩⟩ :=
    h.verdict hslots hp hdone hj
  · exact absurd rfl (h.not_crashed hslots hpanic ha message).2
  · exact ⟨u, outcome, result, hu, hconsistent, ha, hagree⟩

omit hslots hp in
/-- The tasks that the state knows are those of the jobs. -/
lemma Reached.exists_job_of_get? {id : TaskId} {u : TaskState}
    (hu : m.coordinator.state.get? id = some u) :
    ∃ (k : Nat) (j : Job), p.jobs[k]? = some j ∧ j.task.id = id := by
  rw [(h.of_isDone hdone).2] at hu
  exact h.exists_job_of_fold hu

/-- **Where no task has failed or broken down, all have succeeded**, if nobody interrupted the run.

**Proof sketch.** By induction on the place of a job. One that ended without a result was blocked or
interrupted by a dependency that did not succeed, and that stands before it. One that ended with a
result has succeeded, or its task has failed. -/
theorem Reached.succeeded_of_none_failed (hrun : m.interrupted = false)
    (hnone : ∀ id u, m.coordinator.state.get? id = some u →
      u.status ≠ .failed ∧ u.status ≠ .running) (hj : p.jobs[k]? = some j) :
    m.outcomeOf? k = some .succeeded := by
  induction k using Nat.strong_induction_on generalizing j with
  | _ k ih =>
    have hdeps : ∀ d ∈ j.awaited, m.outcomeOf? d = some .succeeded := by
      intro d hd
      obtain ⟨j', hj', -⟩ := (hp.mem_awaited hj d).1 hd
      exact ih d (hp.earlier hj d hd) hj'
    obtain ⟨hall, hstate⟩ := h.of_isDone hdone
    obtain ⟨a, ha⟩ := h.phaseOf?_of_job hj
    obtain ⟨cs, -, htold, -, -, hget⟩ := h.exists_standing hslots hp hj ha
    obtain ⟨hfailed, hrunning⟩ := hnone _ _ (hstate ▸ hget)
    have hgated := h.gated hslots hj ha
    have hended := allEnded_iff.1 hall k a ha
    cases a with
    | crashed message => exact absurd (TaskChange.Underway.isUnderway htold _ _).status_eq hrunning
    | ended outcome result =>
      have hout : m.outcomeOf? k = some outcome := by rw [outcomeOf?, ha]
      cases result with
      | none =>
        rcases hgated with ⟨-, d, hd, hfail, -⟩ | ⟨-, hcut | ⟨d, hd, hint⟩⟩
        · exact absurd (hdeps d hd) hfail.ne_succeeded
        · rw [hrun] at hcut; cases hcut
        · rw [hdeps d hd] at hint; cases hint
      | some r =>
        rcases htold with ⟨-, -, hint⟩ | ⟨rfl, hcs⟩
        · rw [hrun] at hint; cases hint
        · rw [hcs.status_eq] at hfailed
          rw [hout]
          cases ho : r.outcome with
          | success value => rfl
          | failure error command interrupted => rw [ho] at hfailed; exact absurd rfl hfailed
    | _ => cases hended

end Verdict

/-! ### Runs of graphs -/

variable {g : TaskGraph} {launch : Launcher} {run : RunId}

/-- Summing up succeeds in strict mode exactly if no task is listed as failed. -/
lemma orFail_eq_ok_iff (s : RunSummary) : s.orFail = .ok s ↔ s.failureCount = 0 := by
  unfold RunSummary.orFail
  split
  next h => exact iff_of_false (by simp) (by omega)
  next h => exact iff_of_true rfl (by omega)

/-- The state of the coordinator has one entry for each task of the graph when the run is over. -/
lemma Reached.keys_perm (hslots : Slots.ofLimit? limit = .ok world.slots) (hg : g.WellFormed)
    (h : Reached (Plan.ofGraph g launch run) interval world m)
    (hdone : m.coordinator.isDone = true) :
    m.coordinator.state.Keyed ∧ m.coordinator.state.tasks.keys.Perm (g.tasks.map (·.id)) := by
  have hp := Plan.linked_ofGraph hg launch run
  have hkeyed : m.coordinator.state.Keyed := by
    rw [(h.of_isDone hdone).2]
    exact SystemState.keyed_empty.fold m.events
  refine ⟨hkeyed, (List.perm_ext_iff_of_nodup hkeyed.nodup hg.ids_nodup).2 fun id => ?_⟩
  rw [← Table.isSome_get?_iff, Option.isSome_iff_exists, List.mem_map]
  constructor
  · rintro ⟨u, hu⟩
    obtain ⟨k, j, hj, rfl⟩ := h.exists_job_of_get? hdone hu
    obtain ⟨t, ht, -, rfl⟩ := (Plan.getElem?_jobs_ofGraph_iff hg).1 hj
    exact ⟨t, ht, rfl⟩
  · rintro ⟨t, ht, rfl⟩
    obtain ⟨i, -, hj⟩ := Plan.exists_job_of_mem hg launch run ht
    obtain ⟨u, hu, -⟩ := h.verdict hslots hp hdone hj
    exact ⟨u, hu⟩

section Graph

variable (hslots : Slots.ofLimit? limit = .ok world.slots) (hg : g.WellFormed)
  (h : Reached (Plan.ofGraph g launch run) interval world m)
  (hdone : m.coordinator.isDone = true) (hpanic : (Plan.ofGraph g launch run).NeverPanics)
include hslots hg h hdone hpanic

/-- The three accounts of a task of the graph agree. -/
lemma Reached.accounts_of_mem {t : TaskDefinition} (ht : t ∈ g.tasks) :
    let r := GraphResult.ofMachine (Plan.ofGraph g launch run) m
    ∃ outcome u, r.outcome? t.id = some outcome ∧ r.state.get? t.id = some u ∧
      Agree outcome u (r.result? t.id) := by
  intro r
  have hp := Plan.linked_ofGraph hg launch run
  obtain ⟨i, -, hj⟩ := Plan.exists_job_of_mem hg launch run ht
  obtain ⟨u, outcome, result, hu, -, ha, hagree⟩ := h.agreement hslots hp hdone hpanic hj
  have hout : r.outcome? t.id = some outcome :=
    (GraphResult.outcome?_eq_some_iff hp hj).2 ⟨result, ha⟩
  have hresult : r.result? t.id = result := GraphResult.result?_of_ended hp hj ha
  exact ⟨outcome, u, hout, hu, hresult.symm ▸ hagree⟩

/-- Every entry of the last state fits together, and is not that of a running task. -/
lemma Reached.consistent_of_isDone {id : TaskId} {u : TaskState}
    (hu : m.coordinator.state.get? id = some u) : u.Consistent ∧ u.status ≠ .running := by
  have hp := Plan.linked_ofGraph hg launch run
  obtain ⟨k, j, hj, rfl⟩ := h.exists_job_of_get? hdone hu
  obtain ⟨v, outcome, result, hv, hconsistent, -, hagree⟩ :=
    h.agreement hslots hp hdone hpanic hj
  obtain rfl := Option.some.inj (hv.symm.trans hu)
  exact ⟨hconsistent, hagree.status_ne_running⟩

/-- There is one outcome for each task. -/
lemma Reached.outcomes_perm :
    ((GraphResult.ofMachine (Plan.ofGraph g launch run) m).outcomes.map Prod.fst).Perm
      (g.tasks.map (·.id)) := by
  have hp := Plan.linked_ofGraph hg launch run
  refine (List.perm_ext_iff_of_nodup (GraphResult.nodup_outcomes hp) hg.ids_nodup).2 fun id => ?_
  rw [List.mem_map, List.mem_map]
  constructor
  · rintro ⟨⟨_, outcome⟩, hmem, rfl⟩
    obtain ⟨⟨j, s⟩, hzip, hout⟩ := List.mem_filterMap.1 hmem
    obtain ⟨k, hj, -⟩ := GraphResult.mem_zip_jobs.1 hzip
    obtain ⟨t, ht, -, rfl⟩ := (Plan.getElem?_jobs_ofGraph_iff hg).1 hj
    simp only [GraphResult.outcomeOf] at hout
    split at hout <;> cases hout
    exact ⟨t, ht, rfl⟩
  · rintro ⟨t, ht, rfl⟩
    obtain ⟨outcome, u, hout, -⟩ := h.accounts_of_mem hslots hg hdone hpanic ht
    exact ⟨_, (GraphResult.lookup_eq_some_iff (GraphResult.nodup_outcomes hp)).1 hout, rfl⟩

/-- Where all outcomes say so, the state knows of every task that it succeeded. -/
lemma Reached.succeeded_of_outcomes (hall : ∀ t ∈ g.tasks,
    (GraphResult.ofMachine (Plan.ofGraph g launch run) m).outcome? t.id = some .succeeded)
    {id : TaskId} {u : TaskState} (hu : m.coordinator.state.get? id = some u) :
    u.status = .succeeded := by
  obtain ⟨k, j, hj, rfl⟩ := h.exists_job_of_get? hdone hu
  obtain ⟨t, ht, -, rfl⟩ := (Plan.getElem?_jobs_ofGraph_iff hg).1 hj
  obtain ⟨outcome, v, hout, hv, hagree⟩ := h.accounts_of_mem hslots hg hdone hpanic ht
  obtain rfl := Option.some.inj (hout.symm.trans (hall t ht))
  obtain rfl := Option.some.inj (hv.symm.trans hu)
  exact hagree.succeeded_iff.1 rfl

/-- A run that nobody interrupted has no failed task exactly if all its tasks succeeded. -/
lemma Reached.none_failed_iff (hrun : m.interrupted = false) :
    (∀ id u, m.coordinator.state.get? id = some u → u.status ≠ .failed) ↔
      ∀ t ∈ g.tasks, (GraphResult.ofMachine (Plan.ofGraph g launch run) m).outcome? t.id =
        some .succeeded := by
  have hp := Plan.linked_ofGraph hg launch run
  constructor
  · intro hnone t ht
    obtain ⟨i, -, hj⟩ := Plan.exists_job_of_mem hg launch run ht
    have hout := h.succeeded_of_none_failed hslots hp hdone hrun (fun id u hu =>
      ⟨hnone id u hu, (h.consistent_of_isDone hslots hg hdone hpanic hu).2⟩) hj
    obtain ⟨u, outcome, result, -, -, ha, -⟩ := h.agreement hslots hp hdone hpanic hj
    rw [outcomeOf?, ha] at hout
    cases hout
    exact (GraphResult.outcome?_eq_some_iff hp hj).2 ⟨result, ha⟩
  · intro hall id u hu hfailed
    rw [h.succeeded_of_outcomes hslots hg hdone hpanic hall hu] at hfailed
    cases hfailed

end Graph

/-- **The accounts of a run agree.** For every graph that is built, every limit, all work that does
not break down, and every sequence of actions after which the run is over:
* there is one outcome for each task;
* the outcome of a task, what the state knows of it and the result of its execution tell the same;
* the lists of failed and of blocked tasks name these tasks in ascending order, and none in both;
* the counts, with that of the tasks that are pending and not blocked, make up the number of tasks;
* if nobody interrupted the run, it is accepted in strict mode exactly if all tasks succeeded.

**Proof sketch.** When the run is over, the coordinator holds the state after all events, and each
job has ended. What the state knows of its task follows from what the job has told, and this fits
its outcome and its result (`Reached.verdict`). Lists and counts are read off the tasks of the
state: a blocked task is pending, so it is not counted twice, and none is running. -/
theorem accounts_agree {tasks : List TaskDefinition} (hg : TaskGraph.build tasks = .ok g)
    (hslots : Slots.ofLimit? limit = .ok world.slots) (launch : Launcher) (run : RunId)
    (hpanic : (Plan.ofGraph g launch run).NeverPanics) (interval : Nat) (actions : List Action)
    (duration : Nat)
    (hdone : ((start (Plan.ofGraph g launch run) interval world).run
      (Plan.ofGraph g launch run) actions).coordinator.isDone = true) :
    let p := Plan.ofGraph g launch run
    let m := (start p interval world).run p actions
    let r := GraphResult.ofMachine p m
    let s := RunSummary.ofResult run duration r
    (r.outcomes.map Prod.fst).Perm (g.tasks.map (·.id)) ∧
      (∀ t ∈ g.tasks, ∃ outcome u, r.outcome? t.id = some outcome ∧
        r.state.get? t.id = some u ∧ Agree outcome u (r.result? t.id)) ∧
      (TaskId.Ascending s.failed ∧
        ∀ id, id ∈ s.failed ↔ ∃ u, r.state.get? id = some u ∧ u.status = .failed) ∧
      (TaskId.Ascending s.blocked ∧
        ∀ id, id ∈ s.blocked ↔ ∃ u, r.state.get? id = some u ∧ u.blockedBy.isSome = true) ∧
      s.failed.Disjoint s.blocked ∧
      s.successCount + s.failureCount + s.blocked.length + r.state.idleCount = g.tasks.length ∧
      (m.interrupted = false →
        (s.orFail = .ok s ↔ ∀ t ∈ g.tasks, r.outcome? t.id = some .succeeded) ∧
        (s.orFail = .ok s ↔ s.isSuccess = true)) := by
  intro p m r s
  have hwf := TaskGraph.wellFormed_of_build hg
  have hp : p.Linked := Plan.linked_ofGraph hwf launch run
  have h : Reached p interval world m := reached_run actions
  obtain ⟨hkeyed, hperm⟩ := h.keys_perm hslots hwf hdone
  have hsize : r.state.size = g.tasks.length := by
    have := hperm.length_eq
    rwa [List.length_map, Table.keys, List.length_map] at this
  have hentry : ∀ id u, r.state.get? id = some u → u.Consistent ∧ u.status ≠ .running :=
    fun id u hu => h.consistent_of_isDone hslots hwf hdone hpanic hu
  have hfailure : s.failureCount = r.state.count .failed := r.state.length_idsWithStatus .failed
  refine ⟨h.outcomes_perm hslots hwf hdone hpanic,
    fun t ht => h.accounts_of_mem hslots hwf hdone hpanic ht,
    ⟨hkeyed.ascending_sort _, fun id => hkeyed.mem_idsWithStatus_iff⟩,
    ⟨hkeyed.ascending_sort _, fun id => hkeyed.mem_blockedIds_iff⟩,
    fun id hfailed hblocked => ?_, ?_, fun hrun => ?_⟩
  · obtain ⟨u, hu, hstatus⟩ := hkeyed.mem_idsWithStatus_iff.1 hfailed
    obtain ⟨v, hv, hblocked⟩ := hkeyed.mem_blockedIds_iff.1 hblocked
    obtain rfl := Option.some.inj (hu.symm.trans hv)
    rw [(hentry id u hu).1.pending_of_blockedBy hblocked] at hstatus
    cases hstatus
  · rw [hfailure, ← hsize]
    exact hkeyed.size_eq (fun id u hu => (hentry id u hu).2)
      fun id u hu => (hentry id u hu).1.pending_of_blockedBy
  · have hnone := h.none_failed_iff hslots hwf hdone hpanic hrun
    rw [← hkeyed.count_eq_zero_iff] at hnone
    have hstrict : s.orFail = .ok s ↔ r.state.count .failed = 0 :=
      (orFail_eq_ok_iff s).trans (by rw [hfailure])
    refine ⟨hstrict.trans hnone, hstrict.trans ?_⟩
    rw [RunSummary.isSuccess, decide_eq_true_iff, hfailure]
    refine ⟨fun hzero => ⟨hzero, hkeyed.count_eq_size_iff.2 fun id u hu => ?_⟩, And.left⟩
    exact h.succeeded_of_outcomes hslots hwf hdone hpanic (hnone.1 hzero) hu

/-- Of three tasks one succeeds, one fails and one is blocked, and strict mode refuses the run. -/
theorem relay_accounts :
    let r := GraphResult.ofMachine (.ofGraph relayGraph (fun _ _ => .error "") default) relayRun
    let s := RunSummary.ofResult default 0 r
    r.outcomes = [(⟨"a"⟩, .succeeded), (⟨"b"⟩, .failed), (⟨"c"⟩, .blocked)] ∧
      s.failed.Disjoint s.blocked ∧
      s.successCount + s.failureCount + s.blocked.length + r.state.idleCount = 3 ∧
      s.orFail ≠ .ok s := by
  intro r s
  have hbuild : TaskGraph.build relayTasks = .ok relayGraph := rfl
  have hslots : Slots.ofLimit? 1 = .ok (Machine.world ⟨1, []⟩).slots := rfl
  have hdone : relayRun.coordinator.isDone = true := by decide +kernel
  have hrun : relayRun.interrupted = false := by decide +kernel
  have hfailed : r.outcome? ⟨"b"⟩ = some .failed := by decide +kernel
  have hcount : relayGraph.tasks.length = 3 := rfl
  obtain ⟨-, -, -, -, hdisjoint, hsum, hstrict⟩ := accounts_agree hbuild hslots
    (fun _ _ => .error "") default neverPanics_relay 1 relayActions 0 hdone
  refine ⟨by decide +kernel, hdisjoint, hsum.trans hcount, fun hok => ?_⟩
  have hall := (hstrict hrun).1.1 hok relayTasks[1] (by simp [relayGraph, relayTasks])
  exact absurd (hfailed.symm.trans hall) (by simp)

end Machine

end Taskflow
