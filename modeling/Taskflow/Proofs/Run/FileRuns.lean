import Taskflow.CommandLine.Reply
import Taskflow.Proofs.Graph.Lookups
import Taskflow.Proofs.Run.Checks
import Taskflow.Proofs.Run.GraphPlan
import Taskflow.Proofs.TaskFile
set_option autoImplicit false

/-!
# Runs of task files

What can break down when an accepted task file is run. There cannot be more slots than
`Slots.maxCount`, but a file may ask for any limit of 64 bits but zero, and so may whoever runs it:
a limit beyond that count is not reported as an error, it breaks the program down. Nothing else
does: every other step passes its checks.

## Main results

* `runTasks_eq_breakdown_iff` — when a run of tasks breaks down.
* `Reply.exit_run_eq_breakdownCode_iff` — when the program does.
* `TaskFile.breaks_down_only_by_limit` — an accepted file breaks down if it asks for too many slots,
  and in no other way.
-/

namespace Taskflow

variable {f : TaskFile} {g : TaskGraph} {text : String}

/-! ### Endings -/

/-- Who has a summary has not broken down. -/
lemma RunEnding.ofSummary_ne_breakdown (strict : Bool) (s : RunSummary) (message : String) :
    RunEnding.ofSummary strict s ≠ .breakdown message := by
  unfold RunEnding.ofSummary
  split <;> simp

/-- A limit that is too large is refused. -/
lemma Slots.ofLimit?_eq_error {limit : Nat} (h : maxCount < effectiveLimit limit) :
    ofLimit? limit = .error tooManyMessage := if_neg (Nat.not_le.2 h)

/-- A limit that is not too large is taken. -/
lemma Slots.ofLimit?_of_le {limit : Nat} (h : effectiveLimit limit ≤ maxCount) :
    ofLimit? limit = .ok ⟨effectiveLimit limit, []⟩ := if_pos h

/-- **A run of tasks breaks down exactly if the tasks are a graph and the limit is too high.** -/
theorem runTasks_eq_breakdown_iff (tasks : List TaskDefinition) (o : RunOptions)
    (launch : Launcher) (run : RunId) (w : Watch) (world : Machine) :
    (∃ message, (runTasks tasks o launch run w world).ending = .breakdown message) ↔
      (∃ g, TaskGraph.build tasks = .ok g) ∧
        Slots.maxCount < Slots.effectiveLimit o.concurrency := by
  unfold runTasks
  cases hbuild : TaskGraph.build tasks with
  | error e => simp
  | ok g =>
    rcases Nat.lt_or_ge Slots.maxCount (Slots.effectiveLimit o.concurrency) with hlt | hle
    · simp [Slots.ofLimit?_eq_error hlt, hlt]
    · simp [Slots.ofLimit?_of_le hle, Nat.not_lt.2 hle, RunEnding.ofSummary_ne_breakdown]

/-- **The program breaks down exactly if a run of the tasks of an accepted file does.** -/
theorem Reply.exit_run_eq_breakdownCode_iff (files : FileTree) (launch : Launcher) (id : RunId)
    (file : String) (jobs : Option Nat) (strict json : Bool) :
    (Reply.run files launch id file jobs strict json).exit = breakdownCode ↔
      ∃ f, TaskFile.load files file = .ok f ∧
        ∃ message, (runTasks f.tasks (f.optionsWith jobs) launch id {}
          { Machine.world { free := 0 } with files }).ending = .breakdown message := by
  let ending (f : TaskFile) : RunEnding := (runTasks f.tasks (f.optionsWith jobs) launch id {}
    { Machine.world { free := 0 } with files }).ending
  have hother : ∀ f, TaskFile.load files file = .ok f → (∀ message, ending f ≠ .breakdown message) →
      ¬ ∃ f, TaskFile.load files file = .ok f ∧ ∃ message, ending f = .breakdown message := by
    rintro f hload hne ⟨f', hload', message, hending⟩
    obtain rfl : f = f' := Except.ok.inj (hload.symm.trans hload')
    exact hne message hending
  unfold Reply.run
  dsimp only
  split
  next e hload => simp [failed, breakdownCode, hload]
  next f hload =>
    split
    next message hending => exact iff_of_true rfl ⟨f, hload, message, hending⟩
    next e hending =>
      have hending : ending f = .error e := hending
      refine iff_of_false (by simp [failed, breakdownCode]) (hother f hload fun message => ?_)
      rw [hending]
      simp
    next s hending =>
      have hending : ending f = .summary s := hending
      refine iff_of_false ?_ (hother f hload fun message => ?_)
      · dsimp only [breakdownCode]
        split <;> simp
      · rw [hending]
        simp

/-! ### The jobs of a file -/

namespace TaskFile

/-- The tasks of the graph of a file come from its entries. -/
lemma exists_entry_of_job (hg : TaskGraph.build f.tasks = .ok g) {launch : Launcher} {run : RunId}
    {i : Nat} {j : Job} (hj : (Plan.ofGraph g launch run).jobs[i]? = some j) :
    ∃ e ∈ f.entries, e.task = j.task := by
  obtain ⟨t, ht, -, rfl⟩ :=
    (Plan.getElem?_jobs_ofGraph_iff (TaskGraph.wellFormed_of_build hg)).1 hj
  rw [TaskGraph.eq_of_build hg] at ht
  exact List.mem_map.1 ht

/-- No task of a file breaks down by itself: all of them are commands. -/
lemma neverPanics_ofGraph (hg : TaskGraph.build f.tasks = .ok g) (launch : Launcher) (run : RunId) :
    (Plan.ofGraph g launch run).NeverPanics := by
  intro i j hj behaviour hwork n
  obtain ⟨e, -, he⟩ := exists_entry_of_job hg hj
  rw [← he, work_task] at hwork
  cases hwork

/-- The jobs of a file have the retries of its entries. -/
lemma retries_lt_of_job (hg : TaskGraph.build f.tasks = .ok g)
    (hretries : ∀ e ∈ f.entries, ∀ r, e.retry = some r →
      r.maxRetries.toNat < RetryPolicy.maxWord) {launch : Launcher} {run : RunId}
    (i : Nat) (j : Job) (hj : (Plan.ofGraph g launch run).jobs[i]? = some j) :
    j.retries < RetryPolicy.maxWord := by
  obtain ⟨e, hmem, he⟩ := exists_entry_of_job hg hj
  rw [Job.retries, ← he, TaskDefinition.effectiveRetryPolicy, retryPolicy_task]
  cases hretry : e.retry with
  | none => decide
  | some r => exact hretries e hmem r hretry

/-- **An accepted file breaks down if it asks for too many slots, and in no other way.** Let a text
be accepted, let all its tasks have a retry less than there are 32-bit numbers, and let any limit be
given besides. Then
* the limit that holds is the one that is given, or else that of the file, or else four, and at
  least one; the limit of the file and the publishing interval are numbers of 64 bits, and no wait
  before a retry is longer than the clock can add;
* no look-up misses and no count falls below zero when the graph is built and its tasks are put in
  order;
* a run of the tasks breaks down exactly if they are a graph and the limit is beyond the greatest
  number of slots, and so does the program, which reports everything else as an error;
* otherwise the run can start, whatever the interval; whatever then happens, in whatever order, the
  run with checks does not fail and goes the same way as the one without; no job breaks down; and
  no reader of a snapshot leaves out more lines than there are.

**Proof sketch.** The limit is compared with the number of slots in one place only. The tasks of a
file are commands, which do not break down; the numbers of attempts are bounded by the retries;
slots are taken when there are free ones, and the free ones are fewer than the limit while a job
holds one. -/
theorem breaks_down_only_by_limit (hparse : parse text = .ok f)
    (hretries : ∀ e ∈ f.entries, ∀ r, e.retry = some r →
      r.maxRetries.toNat < RetryPolicy.maxWord)
    (jobs : Option Nat) (launch : Launcher) (run : RunId) :
    let o := f.optionsWith jobs
    (o.concurrency = max (jobs.getD (f.concurrency.getD 4)) 1 ∧
      (∀ limit, f.concurrency = some limit → 0 < limit ∧ limit ≤ RetryPolicy.maxLongWord) ∧
      o.publishInterval ≤ RetryPolicy.maxLongWord ∧
      ∀ e ∈ f.entries, ∀ n, Machine.delayMillis (e.task.effectiveRetryPolicy.delayFor n) ≤
        Machine.maxDelaySeconds * 1000) ∧
    (TaskGraph.build? f.tasks = some (TaskGraph.build f.tasks) ∧
      ∀ g, TaskGraph.build f.tasks = .ok g → g.orderedTasks? = some g.orderedTasks) ∧
    (∀ (w : Watch) (world : Machine),
      (∃ message, (runTasks f.tasks o launch run w world).ending = .breakdown message) ↔
        (∃ g, TaskGraph.build f.tasks = .ok g) ∧ Slots.maxCount < o.concurrency) ∧
    (∀ (files : FileTree) (file : String) (strict json : Bool),
      files.readText FileTree.workingDir file = .ok text →
        ((Reply.run files launch run file jobs strict json).exit = Reply.breakdownCode ↔
          (∃ g, TaskGraph.build f.tasks = .ok g) ∧ Slots.maxCount < o.concurrency)) ∧
    ∀ (g : TaskGraph) (slots : Slots) (world : Machine), TaskGraph.build f.tasks = .ok g →
      Slots.ofLimit? o.concurrency = .ok slots →
        let p := Plan.ofGraph g launch run
        let m₀ := Machine.start p o.publishInterval { world with slots }
        Machine.start? p o.publishInterval { world with slots } = some m₀ ∧
        ∀ actions : List Action,
          let m := m₀.run p actions
          m₀.run? p actions = some m ∧
          (∀ k message, m.phaseOf? k ≠ some (.crashed message)) ∧
          ∀ s, s = m.coordinator.state ∨ (∃ e ∈ m.coordinator.published, e.state = s) →
            ∀ id u, s.get? id = some u → ∀ stream start,
              (u.lines stream).iterFrom? start = some ((u.lines stream).iterFrom start) := by
  intro o
  have hlimit : o.concurrency = max (jobs.getD (f.concurrency.getD 4)) 1 :=
    concurrency_optionsWith f jobs
  have heffective : Slots.effectiveLimit o.concurrency = o.concurrency := by
    rw [Slots.effectiveLimit, hlimit]
    omega
  have hinterval : o.publishInterval ≤ RetryPolicy.maxLongWord :=
    publishInterval_optionsWith_le hparse jobs
  refine ⟨⟨hlimit, (bounds_of_parse hparse).1, hinterval,
      fun e _ n => Machine.delayMillis_le (e.task.effectiveRetryPolicy.delayFor n)⟩,
    ⟨TaskGraph.build?_eq f.tasks, fun g hg =>
      (TaskGraph.wellFormed_of_build hg).orderedTasks?_eq⟩,
    fun w world => ?_, fun files file strict json hread => ?_, fun g slots world hg hslots => ?_⟩
  · rw [runTasks_eq_breakdown_iff, heffective]
  · have hload : load files file = .ok f := by rw [load, hread]; exact hparse
    rw [Reply.exit_run_eq_breakdownCode_iff, hload]
    simp only [Except.ok.injEq, exists_eq_left', runTasks_eq_breakdown_iff]
    change _ ∧ Slots.maxCount < Slots.effectiveLimit o.concurrency ↔ _
    rw [heffective]
  · intro p m₀
    have hpanic := neverPanics_ofGraph hg launch run
    have hworld : Slots.ofLimit? o.concurrency = .ok ({ world with slots } : Machine).slots :=
      hslots
    refine ⟨Machine.start?_eq p _ hinterval, fun actions => ?_⟩
    intro m
    have hreached : Machine.Reached p o.publishInterval { world with slots } m :=
      Machine.reached_run actions
    refine ⟨?_, fun k message ha => ?_, fun s hs id u hu stream start => ?_⟩
    · exact Machine.Reached.run?_eq hworld hpanic (retries_lt_of_job hg hretries) .refl actions
    · exact (hreached.not_crashed hworld hpanic ha message).2 rfl
    · exact hreached.iterFrom?_eq hs hu stream start

/-- One task that is tried twice, one at a time. -/
def patientText : String :=
  "concurrency: 1\ntasks:\n- id: a\n  command: \"true\"\n  retry: {max_retries: 1}\n"

/-- What the text of one patient task asks for. -/
def patientFile : TaskFile :=
  { concurrency := some 1
    entries := [{ id := "a", command := "true", retry := some { maxRetries := 1 } }] }

/-- What is there as an option is the value. -/
lemma parse_of_toOption (h : (parse text).toOption = some f) : parse text = .ok f := by
  cases hparse : parse text with
  | error e => rw [hparse] at h; cases h
  | ok g => rw [hparse] at h; cases h; rfl

/-- A patient task does not break the program down, and it is polled with checks as without. -/
theorem patient_file_runs : parse patientText = .ok patientFile ∧
    (¬ ∃ message, (runTasks patientFile.tasks (patientFile.optionsWith none) (fun _ _ => .error "")
      default {} (Machine.world ⟨0, []⟩)).ending = .breakdown message) ∧
    ∃ g, TaskGraph.build patientFile.tasks = .ok g ∧
      let p := Plan.ofGraph g (fun _ _ => .error "") default
      let m₀ := Machine.start p 50 (Machine.world ⟨1, []⟩)
      m₀.run? p [.poll 0 {}] = some (m₀.run p [.poll 0 {}]) := by
  have hparse : parse patientText = .ok patientFile := parse_of_toOption (by decide +kernel)
  have hretries : ∀ e ∈ patientFile.entries, ∀ r, e.retry = some r →
      r.maxRetries.toNat < RetryPolicy.maxWord := by
    intro e he r hr
    cases List.mem_singleton.1 he
    cases hr
    decide
  have hbuild : TaskGraph.build patientFile.tasks = .ok ⟨patientFile.tasks, [⟨"a"⟩]⟩ := rfl
  obtain ⟨-, -, hending, -, hrun⟩ :=
    breaks_down_only_by_limit hparse hretries none (fun _ _ => .error "") default
  refine ⟨hparse, fun h => ?_, _, hbuild, ?_⟩
  · exact absurd ((hending _ _).1 h).2 (by decide)
  · exact ((hrun _ ⟨1, []⟩ (Machine.world ⟨0, []⟩) hbuild rfl).2 [.poll 0 {}]).1

/-- One task, and more slots than there can be. -/
def greedyText : String :=
  "concurrency: 2305843009213693952\ntasks:\n  - id: a\n    command: \"true\"\n"

/-- What the text of one task with too many slots asks for. -/
def greedyFile : TaskFile :=
  { concurrency := some 2305843009213693952, entries := [{ id := "a", command := "true" }] }

/-- **A file with too many slots is accepted, and a run of it breaks down**; and so does one of a
file without a limit, if the limit is given besides. -/
theorem greedy_file_breaks_down : parse greedyText = .ok greedyFile ∧
    (∀ e ∈ greedyFile.entries, e.retry = none) ∧
    (runTasks greedyFile.tasks (greedyFile.optionsWith none) (fun _ _ => .error "") default {}
      (Machine.world ⟨0, []⟩)).ending = .breakdown Slots.tooManyMessage ∧
    (runTasks patientFile.tasks (patientFile.optionsWith (some 2305843009213693952))
      (fun _ _ => .error "") default {} (Machine.world ⟨0, []⟩)).ending =
        .breakdown Slots.tooManyMessage :=
  ⟨parse_of_toOption (by decide +kernel), by decide, by decide +kernel, by decide +kernel⟩

end TaskFile

end Taskflow
