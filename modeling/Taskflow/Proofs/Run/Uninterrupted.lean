import Taskflow.Proofs.Run.Agreement
import Taskflow.Proofs.Run.ExitCode
import Taskflow.Proofs.Run.Progress
import Taskflow.Proofs.Run.Topological
set_option autoImplicit false

/-!
# Runs that nobody interrupts

A task counts as interrupted because the run was interrupted, or because its work says so. In a run
that nobody interrupts the second is left: whoever ends as interrupted depends on a task whose work
can say it. Where no work says it, nobody is interrupted, no result and no event tells of it, a task
fails only when it has no retries left, and the tasks that never start are those that are blocked.

## Main definitions

* `Phase.Exhausted` — a job whose task has failed has used up its retries.

## Main results

* `Machine.Reached.retried` — a failure after which there may be another attempt is followed by one.
* `Machine.Reached.exists_source` — where interrupted tasks have it from.
* `Machine.uninterrupted_run` — both, and what follows for a run of a graph.
* `Machine.quitter_is_believed` — a task that says so itself is not tried again, and the task that
  depends on it is not blocked.

## Design

Retries and exhaustion are about a single job and hold in every run, interrupted or not: the error
of an attempt is looked at, and not the interrupt. Only `exists_source` goes from job to job.
-/

namespace Taskflow

open Relation TaskChange

/-- One error says that the run was interrupted. -/
lemma TaskError.eq_interrupted {e : TaskError} (h : e.isInterrupted = true) : e = .interrupted := by
  cases e with
  | interrupted => rfl
  | _ => cases h

/-- A job whose attempts are over, and have failed for good, has no retry left after the last. -/
def Phase.Exhausted (t : TaskDefinition) (a : Phase) : Prop :=
  ∀ n outcome, a.conclusion? = some (n + 1, outcome) → NodeOutcome.ofTask outcome = .failed →
    t.effectiveRetryPolicy.shouldRetry n = false

/-- The end that a task has told is the outcome with which its job comes out of its attempts. -/
lemma Phase.Told.exists_conclusion {a : Phase} {interrupted : Bool} {cs : List TaskChange}
    (h : a.Told interrupted cs) {time : Timestamp} {outcome : TaskOutcome}
    (hmem : .completed time outcome ∈ cs) :
    ∃ attempts, a.conclusion? = some (attempts, outcome) := by
  have hnil : cs ≠ [] := List.ne_nil_of_mem hmem
  have hopen : ¬ Underway cs := fun h => nomatch h.not_isLast hmem
  have hcompleted : ∀ {o : TaskOutcome}, Completed o cs → o = outcome := by
    rintro o ⟨body, time', hbody, rfl⟩
    rcases List.mem_append.1 hmem with hmem | hmem
    · exact nomatch hbody.not_isLast hmem
    · cases List.mem_singleton.1 hmem
      rfl
  have hsettled : ∀ {node : NodeOutcome} {result : Option TaskResult},
      Settled interrupted cs node result → ∃ r, result = some r ∧ r.outcome = outcome := by
    intro node result h
    cases result with
    | none =>
      rcases h with ⟨-, d, rfl⟩ | ⟨-, rfl⟩
      · simp at hmem
      · cases hmem
    | some r =>
      rcases h with ⟨-, rfl, -⟩ | ⟨-, hcs⟩
      · cases hmem
      · exact ⟨r, rfl, hcompleted hcs⟩
  cases a with
  | waiting | blocking | requesting | asking | queued | granted | starting => exact absurd h hnil
  | releasing attempts o => exact ⟨attempts, by rw [conclusion?, hcompleted h]⟩
  | settling | ended =>
    obtain ⟨r, rfl, rfl⟩ := hsettled h
    exact ⟨r.attempts, rfl⟩
  | _ => exact absurd h hopen

namespace Machine

variable {p : Plan} {j : Job} {a : Phase} {k : Nat} {m m' : Machine} {n : UInt32}
  {e : TaskError} {interval limit : Nat} {world : Machine}

/-! ### Retries -/

/-- The announcement of the attempt after attempt `n` of job `j`. -/
def announcement (j : Job) (n : UInt32) (time : Timestamp) : TaskChange :=
  .retrying (n + 1) j.task.effectiveRetryPolicy.maxAttempts time

/-- A job whose attempt has failed, and may be followed by another one, announces the next. -/
lemma Moves.retried {s : JobState} {v : Move} (h : Moves p j s m a v)
    (ha : a.Finishes n (.fail e)) (he : e ≠ .interrupted)
    (hn : j.task.effectiveRetryPolicy.shouldRetry n = true) :
    v.phase.Finishes n (.fail e) ∨ ∃ time, v.deed.told = some (announcement j n time) := by
  rcases ha with rfl | ⟨rfl, -⟩
  · cases h
    exact .inl (.inr ⟨rfl, by simpa using he⟩)
  · cases h with
    | retry _ _ record wake _ _ => exact .inr ⟨m.timestamp, rfl⟩
    | exhaust _ _ h =>
      rcases h with hcut | hover
      · exact absurd (TaskError.eq_interrupted hcut) he
      · rw [hn] at hover; cases hover

/-- **A failure after which there may be another attempt is followed by one**: as soon as the job
has gone on, the next attempt is announced. -/
theorem Reached.retried (hslots : Slots.ofLimit? limit = .ok world.slots)
    (h : Reached p interval world m) (hsteps : ReflTransGen (Step p) m m')
    (hj : p.jobs[k]? = some j) (ha : m.phaseOf? k = some a) (hfin : a.Finishes n (.fail e))
    (he : e ≠ .interrupted) (hn : j.task.effectiveRetryPolicy.shouldRetry n = true) :
    (∃ b, m'.phaseOf? k = some b ∧ b.Finishes n (.fail e)) ∨
      ∃ time, announcement j n time ∈ m'.toldBy k := by
  induction hsteps with
  | refl => exact .inl ⟨a, ha, hfin⟩
  | tail hsteps hs ih =>
    have hr : Reached p interval world _ := h.trans hsteps
    obtain ⟨b, hb⟩ := hr.phaseOf?_of_job hj
    obtain ⟨c, b', hturn, hb', htold⟩ := hs.turn (hr.balanced hslots) hj hb
    rw [htold]
    rcases ih with ⟨b₁, hb₁, hfin⟩ | ⟨time, hmem⟩
    · obtain rfl : b = b₁ := Option.some.inj (hb.symm.trans hb₁)
      cases hturn with
      | stay => exact .inl ⟨_, hb', hfin⟩
      | grant | hear => rcases hfin with hfin | ⟨hfin, -⟩ <;> cases hfin
      | move hmove =>
        refine (hmove.retried hfin he hn).imp (fun hfin => ⟨_, hb', hfin⟩) ?_
        rintro ⟨time, hdeed⟩
        exact ⟨time, List.mem_append_right _ (by simp [hdeed])⟩
    · exact .inr ⟨time, List.mem_append_left _ hmem⟩

/-! ### Exhaustion -/

/-- What a job concludes from its last attempt `n`. -/
lemma exhausted_concluded {t : TaskDefinition} {outcome : TaskOutcome}
    (h : NodeOutcome.ofTask outcome = .failed → t.effectiveRetryPolicy.shouldRetry n = false) :
    (concluded t (n + 1) outcome).Exhausted t := by
  intro n' outcome' hover hfailed
  rw [conclusion?_concluded] at hover
  obtain ⟨hn, rfl⟩ := Prod.mk.inj (Option.some.inj hover)
  obtain rfl : n = n' := (UInt32.add_left_inj 1).1 hn
  exact h hfailed

/-- A move leads to a failure for good only if no retry is left. -/
lemma Moves.exhausted {s : JobState} {v : Move} (h : Moves p j s m a v)
    (ha : a.Exhausted j.task) : v.phase.Exhausted j.task := by
  have hcut : ∀ {a : Phase} {attempts : UInt32},
      a.conclusion? = some (attempts, .ofError .interrupted) → a.Exhausted j.task := by
    intro a attempts hover n outcome hover' hfailed
    obtain ⟨-, rfl⟩ := Prod.mk.inj (Option.some.inj (hover.symm.trans hover'))
    cases hfailed
  cases h with
  | withdraw | leave | refuse => exact hcut rfl
  | succeed n result => exact exhausted_concluded fun hfailed => by cases hfailed
  | exhaust n e hover =>
    refine exhausted_concluded fun hfailed => hover.resolve_left fun hcut => ?_
    obtain rfl := TaskError.eq_interrupted hcut
    cases hfailed
  | stop n wake _ => exact hcut (conclusion?_concluded _ _ _)
  | keep | complete | release => exact ha
  | settle outcome result => cases result <;> exact ha
  | _ => exact fun n outcome hover => by cases hover

/-- **A task that has failed, and not as interrupted, has used up its retries.** -/
theorem Reached.exhausted (hslots : Slots.ofLimit? limit = .ok world.slots)
    (h : Reached p interval world m) (hj : p.jobs[k]? = some j) (ha : m.phaseOf? k = some a) :
    a.Exhausted j.task := by
  refine h.induct_job hslots hj (I := fun _ a _ => a.Exhausted j.task) ?_ ?_ ha
  · intro n outcome hover
    unfold firstPhase at hover
    split at hover <;> cases hover
  · intro m m' a c b told _ _ hturn _ hexhausted
    cases hturn with
    | stay => exact hexhausted
    | grant | hear => exact fun n outcome hover => by cases hover
    | move hmove => exact hmove.exhausted hexhausted

/-! ### Sources -/

/-- A job that others see as interrupted has not broken down. -/
lemma exists_result_of_interrupted (h : m.outcomeOf? k = some .interrupted) :
    ∃ result, m.phaseOf? k = some (.ended .interrupted result) := by
  unfold outcomeOf? at h
  split at h
  next ha => cases h; exact ⟨_, ha⟩
  next => cases h
  next => cases h

section Graph

variable {g : TaskGraph} {launch : Launcher} {run : RunId} {t : TaskDefinition}
  (hslots : Slots.ofLimit? limit = .ok world.slots) (hg : g.WellFormed)
  (h : Reached (Plan.ofGraph g launch run) interval world m) (hrun : m.interrupted = false)
include hslots hg h hrun

/-- **Whoever ends as interrupted has it from a task whose work can say it**, if nobody interrupted
the run.

**Proof sketch.** By induction on the place of a job. With a result, it is its own work that says
it, for nothing else in a run that is not interrupted does. Without one it has heard from a
dependency that ended so, and that stands before it. -/
theorem Reached.exists_source (ht : t ∈ g.tasks) :
    let r := GraphResult.ofMachine (Plan.ofGraph g launch run) m
    r.outcome? t.id = some .interrupted → ∃ source ∈ g.tasks,
      ReflTransGen g.DependsOn source.id t.id ∧ r.outcome? source.id = some .interrupted ∧
      ¬ (Plan.jobOf g run source).Ends (.ofGraph g launch run) fun e => e ≠ .fail .interrupted := by
  intro r ho
  have hp := Plan.linked_ofGraph hg launch run
  obtain ⟨i, hi, hj⟩ := Plan.exists_job_of_mem hg launch run ht
  induction i using Nat.strong_induction_on generalizing t with
  | _ i ih =>
    by_cases hends :
        (Plan.jobOf g run t).Ends (.ofGraph g launch run) fun e => e ≠ .fail .interrupted
    · obtain ⟨result, ha⟩ := (GraphResult.outcome?_eq_some_iff hp hj).1 ho
      have hmet := h.ends_of_job hslots hj hends ha
      have hgated := h.gated hslots hj ha
      cases result with
      | some result =>
        rcases hmet with hint | hne
        · rw [hrun] at hint; cases hint
        · exact absurd rfl hne
      | none =>
        rcases hgated with ⟨hblocked, -⟩ | ⟨-, hint | ⟨d, hd, hdep⟩⟩
        · cases hblocked
        · rw [hrun] at hint; cases hint
        · obtain ⟨j', hj', hid⟩ := (hp.mem_awaited hj d).1 hd
          obtain ⟨result, ha'⟩ := exists_result_of_interrupted hdep
          have ho' := (GraphResult.outcome?_eq_some_iff hp hj').2 ⟨result, ha'⟩
          obtain ⟨u, hu, hplace, rfl⟩ := (Plan.getElem?_jobs_ofGraph_iff hg).1 hj'
          obtain ⟨source, hsource, hpath, hcut⟩ := ih d (hp.earlier hj d hd) hu ho' hplace hj'
          refine ⟨source, hsource, hpath.tail ?_, hcut⟩
          rw [TaskGraph.DependsOn, hg.dependenciesOf_of_mem ht]
          exact hid
    · exact ⟨t, ht, .refl, ho, hends⟩

/-! ### Where no work says it -/

omit hslots hg h hrun in
/-- Commands never say that they were interrupted. -/
lemma ne_interrupted_of_isPlain (e : Ending) (he : e.IsPlain) : e ≠ .fail .interrupted := by
  rintro rfl
  cases he

section Plain

variable (hends : (Plan.ofGraph g launch run).Ends fun e => e ≠ .fail .interrupted)
include hends

omit hg in
/-- What a job comes out of its attempts with is no interrupt. -/
lemma Reached.ofTask_ne_interrupted (hj : (Plan.ofGraph g launch run).jobs[k]? = some j)
    (ha : m.phaseOf? k = some a) {attempts : UInt32} {outcome : TaskOutcome}
    (hover : a.conclusion? = some (attempts, outcome)) :
    NodeOutcome.ofTask outcome ≠ .interrupted := by
  intro hcut
  have hmet := h.ends hslots hends ne_interrupted_of_isPlain ha
  obtain ⟨cs, -, htold⟩ := h.told hslots hj ha
  rcases interrupted_of_conclusion hmet htold hover hcut with hint | hne
  · rw [hrun] at hint; cases hint
  · exact hne rfl

omit hg in
/-- No event tells of an end by an interrupt. -/
lemma Reached.completed_notMem (id : TaskId) (time : Timestamp) (error : String)
    (command : Option CommandFailure) :
    ⟨id, .completed time (.failure error command true)⟩ ∉ m.events := by
  intro hmem
  obtain ⟨x, hx, hevent⟩ := List.mem_map.1 hmem
  obtain ⟨j, hj, -⟩ := h.tagged (List.mem_reverse.1 hx)
  have htold : .completed time (.failure error command true) ∈ m.toldBy x.job := by
    rw [toldBy, List.mem_map]
    exact ⟨x, List.mem_filter.2 ⟨hx, decide_eq_true rfl⟩, by rw [hevent]⟩
  obtain ⟨a, ha⟩ := h.phaseOf?_of_job hj
  obtain ⟨cs, hcs, hphase⟩ := h.told hslots hj ha
  have hcompleted : .completed time (.failure error command true) ∈ cs := by
    rw [hcs, List.mem_append] at htold
    refine htold.resolve_left fun hreg => ?_
    unfold Job.registration at hreg
    split at hreg <;> simp at hreg
  obtain ⟨attempts, hover⟩ := hphase.exists_conclusion hcompleted
  exact h.ofTask_ne_interrupted hslots hrun hends hj ha hover rfl

end Plain

/-- A task that has failed has no retries left. -/
lemma Reached.not_shouldRetry
    (hends : (Plan.ofGraph g launch run).Ends fun e => e ≠ .fail .interrupted)
    (ht : t ∈ g.tasks) {u : TaskState} (hu : (SystemState.empty.fold m.events).get? t.id = some u)
    (hfailed : u.status = .failed) :
    t.effectiveRetryPolicy.shouldRetry u.retryAttempt = false := by
  have hp := Plan.linked_ofGraph hg launch run
  obtain ⟨i, -, hj⟩ := Plan.exists_job_of_mem hg launch run ht
  obtain ⟨a, ha⟩ := h.phaseOf?_of_job hj
  obtain ⟨cs, -, htold, hnumbered, -, hget⟩ := h.exists_standing hslots hp hj ha
  have hcs := Option.some.inj (hu.symm.trans hget)
  obtain ⟨error, cut, -, hover⟩ := conclusion_of_failed htold (hcs ▸ hnumbered) hcs hfailed
  have hplain := h.ofTask_ne_interrupted hslots hrun hends hj ha hover
  refine h.exhausted hslots hj ha _ _ hover ?_
  cases cut with
  | true => exact absurd rfl hplain
  | false => rfl

section Over

variable (hends : (Plan.ofGraph g launch run).Ends fun e => e ≠ .fail .interrupted)
  (hdone : m.coordinator.isDone = true) (hpanic : (Plan.ofGraph g launch run).NeverPanics)
include hends hdone hpanic

/-- When the run is over, the tasks that have not started are those that are blocked. -/
lemma Reached.blocked_iff_not_started (ht : t ∈ g.tasks) {u : TaskState}
    (hu : m.coordinator.state.get? t.id = some u) :
    (u.blockedBy.isSome = true ↔ u.status = .pending) ∧
      (u.status = .pending ↔ u.startedAt = none) := by
  have hp := Plan.linked_ofGraph hg launch run
  obtain ⟨i, -, hj⟩ := Plan.exists_job_of_mem hg launch run ht
  obtain ⟨v, outcome, result, hv, hconsistent, ha, hagree⟩ :=
    h.agreement hslots hp hdone hpanic hj
  obtain rfl := Option.some.inj (hv.symm.trans hu)
  refine ⟨⟨hconsistent.pending_of_blockedBy, fun hpending => ?_⟩, ?_⟩
  · refine hagree.blocked_iff.1 ?_
    have hout : m.outcomeOf? i = some outcome := by rw [outcomeOf?, ha]
    cases outcome with
    | blocked => rfl
    | succeeded => rw [hagree.succeeded_iff.1 rfl] at hpending; cases hpending
    | failed => rw [(hagree.failed_iff.1 rfl).1] at hpending; cases hpending
    | interrupted => exact absurd hout (h.outcome_ne_interrupted hslots hrun hp hends i)
  · rw [← not_iff_not, ← Ne, ← hconsistent.isSome_startedAt_iff, ← Ne, Option.ne_none_iff_isSome]

/-- When the run is over, a task with a failed task among those it depends on is blocked. -/
lemma Reached.blocked_of_failed (ht : t ∈ g.tasks) {d : TaskId} (hd : TransGen g.DependsOn d t.id)
    {v : TaskState} (hv : m.coordinator.state.get? d = some v) (hfailed : v.status = .failed) :
    ∃ u, m.coordinator.state.get? t.id = some u ∧ u.blockedBy.isSome = true := by
  have hp := Plan.linked_ofGraph hg launch run
  obtain ⟨i, -, hj⟩ := Plan.exists_job_of_mem hg launch run ht
  obtain ⟨u, hu, -⟩ := h.verdict hslots hp hdone hj
  refine ⟨u, hu, (h.blocked_iff_not_started hslots hg hrun hends hdone hpanic ht hu).1.2 ?_⟩
  by_contra hstarted
  have hsound := h.sound hslots hg
  rw [← (h.of_isDone hdone).2] at hsound
  obtain ⟨w, hw, hsucceeded⟩ := hsound _ u hu hstarted d hd
  obtain rfl := Option.some.inj (hv.symm.trans hw)
  rw [hfailed] at hsucceeded
  cases hsucceeded

end Over

end Graph

/-- **Runs that nobody interrupts.** For every graph that is built, every limit, work that does not
break down, and every sequence of actions of which none interrupts the run:
* whoever ends as interrupted is, or depends on, a task that ends so and whose work can say it;
* where no work says it, no task ends as interrupted, with a result or without;
* no event tells that a task was interrupted;
* an attempt that fails and may be followed by another one is, as soon as its job has gone on;
* a task that has failed has no retries left;
* when the run is over, every task that depends on a failed one, directly or not, is blocked;
* then the list of blocked tasks names those that were never started, in ascending order.

**Proof sketch.** If nobody interrupts the run, a job ends as interrupted only if its last attempt
said so, or a dependency has ended so; following the dependencies leads to a source
(`Reached.exists_source`). Where no work says it, an attempt that fails is judged by the policy
alone: either its retry is announced (`Reached.retried`), or no retry is left (`Reached.exhausted`).
A task that depends on a failed one hears of it, or of one that is blocked for it, and is blocked
(`Reached.blocked_of_failed`). -/
theorem uninterrupted_run {g : TaskGraph} {tasks : List TaskDefinition}
    (hg : TaskGraph.build tasks = .ok g) (hslots : Slots.ofLimit? limit = .ok world.slots)
    (launch : Launcher) (run : RunId) (hpanic : (Plan.ofGraph g launch run).NeverPanics)
    (interval : Nat) (actions : List Action) (duration : Nat) :
    let p := Plan.ofGraph g launch run
    let m := (start p interval world).run p actions
    let r := GraphResult.ofMachine p m
    let s := RunSummary.ofResult run duration r
    m.interrupted = false →
      (∀ t ∈ g.tasks, r.outcome? t.id = some .interrupted → ∃ source ∈ g.tasks,
        ReflTransGen g.DependsOn source.id t.id ∧ r.outcome? source.id = some .interrupted ∧
          ¬ (Plan.jobOf g run source).Ends p fun e => e ≠ .fail .interrupted) ∧
      ((p.Ends fun e => e ≠ .fail .interrupted) →
        (∀ t ∈ g.tasks, r.outcome? t.id ≠ some .interrupted ∧
          ∀ result, r.result? t.id = some result →
            NodeOutcome.ofTask result.outcome ≠ .interrupted) ∧
        (∀ id time error command,
          ⟨id, .completed time (.failure error command true)⟩ ∉ m.events) ∧
        (∀ t ∈ g.tasks, ∃ i, g.order[i]? = some t.id ∧ ∀ ms, Trail p interval world (m :: ms) →
          ∀ n e, HasFinished (m :: ms) i n (.fail e) →
            t.effectiveRetryPolicy.shouldRetry n = true →
            (∃ a, m.phaseOf? i = some a ∧ a.Finishes n (.fail e)) ∨
              ∃ time, ⟨t.id, announcement (Plan.jobOf g run t) n time⟩ ∈ m.events) ∧
        (∀ t ∈ g.tasks, ∀ u, (SystemState.empty.fold m.events).get? t.id = some u →
          u.status = .failed → t.effectiveRetryPolicy.shouldRetry u.retryAttempt = false) ∧
        (m.coordinator.isDone = true →
          (∀ t ∈ g.tasks, ∀ d u, TransGen g.DependsOn d t.id → s.state.get? d = some u →
            u.status = .failed → ∃ v, s.state.get? t.id = some v ∧ v.blockedBy.isSome = true) ∧
          TaskId.Ascending s.blocked ∧
          ∀ id, id ∈ s.blocked ↔ ∃ u, s.state.get? id = some u ∧ u.startedAt = none)) := by
  intro p m r s hrun
  have hwf := TaskGraph.wellFormed_of_build hg
  have hp : p.Linked := Plan.linked_ofGraph hwf launch run
  have h : Reached p interval world m := reached_run actions
  refine ⟨fun t ht => h.exists_source hslots hwf hrun ht, fun hends => ⟨fun t ht => ⟨?_, ?_⟩,
    h.completed_notMem hslots hrun hends, fun t ht => ?_,
    fun t ht u => h.not_shouldRetry hslots hwf hrun hends ht, fun hdone => ⟨?_, ?_, fun id => ?_⟩⟩⟩
  · intro ho
    obtain ⟨i, -, hj⟩ := Plan.exists_job_of_mem hwf launch run ht
    obtain ⟨result, ha⟩ := (GraphResult.outcome?_eq_some_iff hp hj).1 ho
    exact h.outcome_ne_interrupted hslots hrun hp hends i (by rw [outcomeOf?, ha])
  · intro result hresult
    obtain ⟨i, -, hj⟩ := Plan.exists_job_of_mem hwf launch run ht
    obtain ⟨outcome, ha⟩ := (GraphResult.mem_results_iff hp hj).1
      ((GraphResult.lookup_eq_some_iff (GraphResult.nodup_results hp)).1 hresult)
    exact h.ofTask_ne_interrupted hslots hrun hends hj ha rfl
  · obtain ⟨i, hi, hj⟩ := Plan.exists_job_of_mem hwf launch run ht
    refine ⟨i, hi, fun ms hms n e hfin hn => ?_⟩
    have hne : e ≠ .interrupted := fun heq =>
      hms.of_hasFinished hslots hj (ends_job hends ne_interrupted_of_isPlain hj) hfin
        (congrArg Ending.fail heq)
    obtain ⟨m₁, hmem, a₁, ha₁, hfin⟩ := hfin
    obtain ⟨h₁, hsteps⟩ := hms.steps_of_mem hmem
    rcases h₁.retried hslots hsteps hj ha₁ hfin hne hn with hnext | ⟨time, htold⟩
    · exact .inl hnext
    · exact .inr ⟨time, Reached.mem_events_of_toldBy hp h hj htold⟩
  · exact fun t ht d u hd hu hfailed =>
      h.blocked_of_failed hslots hwf hrun hends hdone hpanic ht hd hu hfailed
  · exact (h.keys_perm hslots hwf hdone).1.ascending_sort _
  · refine (h.keys_perm hslots hwf hdone).1.mem_blockedIds_iff.trans
      (exists_congr fun u => and_congr_right fun hu => ?_)
    obtain ⟨i, j, hj, rfl⟩ := h.exists_job_of_get? hdone hu
    obtain ⟨t, ht, -, rfl⟩ := (Plan.getElem?_jobs_ofGraph_iff hwf).1 hj
    obtain ⟨hblocked, hstarted⟩ :=
      h.blocked_iff_not_started hslots hwf hrun hends hdone hpanic ht hu
    exact hblocked.trans hstarted

end Machine

/-! ### A task that says it was interrupted -/

/-- Both attempts of task `a` fail with an error, and `t` depends on `a`. -/
def quitTasks (e : TaskError) : List TaskDefinition :=
  [{ TaskDefinition.ofComputation ⟨"a"⟩ fun _ => .finish (.fail e) with
      retryPolicy := some ⟨.ofNat 1, .ofMillis 10⟩ },
    (TaskDefinition.ofComputation ⟨"t"⟩ fun _ => .finish (.ok .null)).dependsOn ⟨"a"⟩]

/-- The graph of the two tasks. -/
def quitGraph (e : TaskError) : TaskGraph := ⟨quitTasks e, [⟨"a"⟩, ⟨"t"⟩]⟩

/-- The jobs of the two tasks. -/
def quitPlan (e : TaskError) : Plan := .ofGraph (quitGraph e) (fun _ _ => .error "") default

/-- The tasks go on as far as they can, one after the other. -/
def quitActions : List Action :=
  List.replicate 9 (.move 0 {}) ++ .advance 10 :: List.replicate 9 (.move 0 {}) ++
    .arrive 1 0 :: List.replicate 3 (.move 1 {}) ++ [.receive, .receive]

/-- The machine after these actions, with one slot. -/
def quitRun (e : TaskError) : Machine :=
  (Machine.start (quitPlan e) 1 (Machine.world ⟨1, []⟩)).run (quitPlan e) quitActions

namespace Machine

/-- **A task that says so itself is believed**: nobody interrupted the run, but task `a` ends as
interrupted with a result and an event that say so, it is not tried again although it may be, and
`t`, which depends on it and never starts, is not blocked. -/
theorem quitter_is_believed :
    let m := quitRun .interrupted
    let r := GraphResult.ofMachine (quitPlan .interrupted) m
    let s := RunSummary.ofResult default 0 r
    TaskGraph.build (quitTasks .interrupted) = .ok (quitGraph .interrupted) ∧
      m.coordinator.isDone = true ∧ m.interrupted = false ∧
      r.outcomes = [(⟨"a"⟩, .interrupted), (⟨"t"⟩, .interrupted)] ∧
      r.results = [(⟨"a"⟩, ⟨⟨"a"⟩, .failure "interrupted" none true, 1⟩)] ∧
      ⟨⟨"a"⟩, .completed ⟨0, 0⟩ (.failure "interrupted" none true)⟩ ∈ m.events ∧
      (s.state.get? ⟨"a"⟩).map (fun u => (u.status, u.retryAttempt)) = some (.failed, 0) ∧
      (quitTasks .interrupted).map (·.effectiveRetryPolicy.shouldRetry 0) = [true, false] ∧
      (s.state.get? ⟨"t"⟩).map (fun u => (u.startedAt, u.blockedBy)) = some (none, none) ∧
      s.blocked = [] := by
  refine ⟨rfl, ?_, ?_, ?_, ?_, ?_, ?_, ?_, ?_, ?_⟩ <;> decide +kernel

/-- The computations of the two tasks end with an error or a value. -/
lemma quitPlan_ends {e : TaskError} {P : Ending → Prop} (hfail : P (.fail e))
    (hok : P (.ok .null)) :
    (quitPlan e).Ends P := by
  intro i j hj behaviour hwork n
  match i with
  | 0 => cases hj; cases hwork; exact .finish _ hfail
  | 1 => cases hj; cases hwork; exact .finish _ hok
  | i + 2 => cases hj

/-- A task that fails otherwise is tried again, and `t` is the one task that was never started. -/
theorem failure_is_retried :
    let m := quitRun (.failed "boom")
    let s := RunSummary.ofResult default 0 (GraphResult.ofMachine (quitPlan (.failed "boom")) m)
    (s.state.get? ⟨"a"⟩).map (fun u => (u.status, u.retryAttempt)) = some (.failed, 1) ∧
      (quitTasks (.failed "boom"))[0].effectiveRetryPolicy.shouldRetry 1 = false ∧
      ⟨"t"⟩ ∈ s.blocked ∧ ∃ u, s.state.get? ⟨"t"⟩ = some u ∧ u.startedAt = none := by
  intro m s
  have hbuild : TaskGraph.build (quitTasks (.failed "boom")) = .ok (quitGraph (.failed "boom")) :=
    rfl
  have hslots : Slots.ofLimit? 1 = .ok (Machine.world ⟨1, []⟩).slots := rfl
  have hrun : m.interrupted = false := by decide +kernel
  have hdone : m.coordinator.isDone = true := by decide +kernel
  have hfailed : (s.state.get? ⟨"a"⟩).map (fun u => (u.status, u.retryAttempt)) =
      some (.failed, 1) := by decide +kernel
  have hblocked : ⟨"t"⟩ ∈ s.blocked := by decide +kernel
  have hsame : s.state = SystemState.empty.fold m.events := by decide +kernel
  obtain ⟨u, hu, hfields⟩ := Option.map_eq_some_iff.1 hfailed
  obtain ⟨hstatus, hattempt⟩ := Prod.mk.inj hfields
  obtain ⟨-, hplain⟩ := uninterrupted_run hbuild hslots (fun _ _ => .error "") default
    (quitPlan_ends (by simp) (by simp)) 1 quitActions 0 hrun
  obtain ⟨-, -, -, hexhausted, hover⟩ := hplain (quitPlan_ends (by simp) (by simp))
  refine ⟨hfailed, ?_, hblocked, ((hover hdone).2.2 _).1 hblocked⟩
  have := hexhausted (quitTasks (.failed "boom"))[0] (by simp [quitGraph, quitTasks]) u
    (hsame ▸ hu) hstatus
  rwa [hattempt] at this

end Machine

end Taskflow
