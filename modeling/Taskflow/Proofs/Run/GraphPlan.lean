import Taskflow.Proofs.Graph.Order
import Taskflow.Proofs.Run.Coordination
import Taskflow.Proofs.Run.Endings
import Taskflow.Proofs.Run.Gate
import Taskflow.Proofs.Run.Lifecycle
import Taskflow.Run.Summary
set_option autoImplicit false

/-!
# The plan of a graph

The jobs of a graph stand in its order, one for each task, and each waits for the jobs of its
dependencies, which stand before it. As no two jobs have the same task, the state of a task is
known from what its job has emitted.

## Main definitions

* `Plan.Linked` — the jobs wait for one another as the dependencies of their tasks say.

## Main results

* `Plan.linked_ofGraph` — the jobs of a graph do.
* `Machine.Reached.get?_fold_events` — the state of a task after all events is what its job has
  emitted.
* `Machine.Reached.outcome_ne_interrupted` — nobody is interrupted of whom nobody asked it.
-/

namespace Taskflow

namespace Plan

/-! ### Places -/

/-- In a list without repetitions, an identifier has the place where it stands. -/
lemma placeOf_eq_some_iff {order : List TaskId} (hn : order.Nodup) {id : TaskId} {i : Nat} :
    placeOf order id = some i ↔ order[i]? = some id := by
  rw [placeOf, List.findIdx?_eq_some_iff_getElem]
  constructor
  · rintro ⟨hi, hid, -⟩
    rw [List.getElem?_eq_getElem hi]
    exact congrArg some (of_decide_eq_true hid)
  · intro h
    obtain ⟨hi, rfl⟩ := List.getElem?_eq_some_iff.1 h
    refine ⟨hi, by simp, fun k hk => ?_⟩
    have hne : order[k] ≠ order[i] := fun he =>
      Nat.ne_of_lt hk ((hn.getElem_inj_iff).1 he)
    simpa using hne

/-- What makes the jobs of a plan those of a graph: they have different tasks, they wait for the
jobs of the dependencies of their tasks, and these stand before them. -/
structure Linked (p : Plan) : Prop where
  gated : ∀ {i : Nat} {j : Job}, p.jobs[i]? = some j → j.gate.isSome = true
  id_inj : ∀ {i k : Nat} {j j' : Job}, p.jobs[i]? = some j → p.jobs[k]? = some j' →
    j.task.id = j'.task.id → i = k
  mem_awaited : ∀ {i : Nat} {j : Job}, p.jobs[i]? = some j → ∀ d, d ∈ j.awaited ↔
    ∃ j', p.jobs[d]? = some j' ∧ j'.task.id ∈ j.task.dependencies
  declared : ∀ {i : Nat} {j : Job}, p.jobs[i]? = some j → ∀ id ∈ j.task.dependencies,
    ∃ (d : Nat) (j' : Job), p.jobs[d]? = some j' ∧ j'.task.id = id
  earlier : ∀ {i : Nat} {j : Job}, p.jobs[i]? = some j → ∀ d ∈ j.awaited, d < i

variable {g : TaskGraph} {launch : Launcher} {run : RunId}

/-- The job of a task of a graph. -/
def jobOf (g : TaskGraph) (run : RunId) (t : TaskDefinition) : Job :=
  { task := t, gate := some (t.dependencies.filterMap (placeOf g.order)), run }

/-- At each place of the order stands the job of its task. -/
lemma getElem?_jobs_ofGraph (i : Nat) :
    (ofGraph g launch run).jobs[i]? = (g.orderedTasks[i]?).map (jobOf g run) := by
  simp only [ofGraph, List.getElem?_toArray, List.getElem?_map]
  rfl

/-- At a place of a graph stands the job of the task whose identifier stands there. -/
lemma getElem?_jobs_ofGraph_iff (hg : g.WellFormed) {i : Nat} {j : Job} :
    (ofGraph g launch run).jobs[i]? = some j ↔
      ∃ t ∈ g.tasks, g.order[i]? = some t.id ∧ j = jobOf g run t := by
  rw [getElem?_jobs_ofGraph, hg.getElem?_orderedTasks]
  constructor
  · intro h
    obtain ⟨t, ht, rfl⟩ := Option.map_eq_some_iff.1 h
    obtain ⟨id, hid, ht⟩ := Option.bind_eq_some_iff.1 ht
    have hid' : t.id = id := by simpa using List.find?_some ht
    exact ⟨t, List.mem_of_find?_eq_some ht, hid' ▸ hid, rfl⟩
  · rintro ⟨t, ht, hid, rfl⟩
    rw [hid, Option.bind_some, hg.task?_of_mem ht]
    rfl

/-- Every task of a graph has a job. -/
lemma exists_job_of_mem (hg : g.WellFormed) (launch : Launcher) (run : RunId) {t : TaskDefinition}
    (ht : t ∈ g.tasks) : ∃ i : Nat, g.order[i]? = some t.id ∧
      (ofGraph g launch run).jobs[i]? = some (jobOf g run t) := by
  have hmem : t.id ∈ g.order := hg.order_perm.mem_iff.2 (List.mem_map.2 ⟨t, ht, rfl⟩)
  obtain ⟨i, hi⟩ := List.mem_iff_getElem?.1 hmem
  exact ⟨i, hi, (getElem?_jobs_ofGraph_iff hg).2 ⟨t, ht, hi, rfl⟩⟩

/-- The jobs of a graph are registered in its order. -/
lemma registrations_ofGraph (g : TaskGraph) (launch : Launcher) (run : RunId) :
    (ofGraph g launch run).registrations.map (·.1) =
      g.orderedTasks.map fun t => ⟨t.id, .registered t.name⟩ := by
  have hjobs : (ofGraph g launch run).jobs.toList = g.orderedTasks.map (jobOf g run) := rfl
  have hgated : ((ofGraph g launch run).jobs.toList.zipIdx.filter fun x => x.1.gate.isSome) =
      (ofGraph g launch run).jobs.toList.zipIdx := by
    refine List.filter_eq_self.2 fun x hx => ?_
    obtain ⟨t, -, ht⟩ := List.mem_map.1 (hjobs ▸ List.fst_mem_of_mem_zipIdx hx)
    rw [← ht]
    rfl
  let register (j : Job) : TaskEvent := ⟨j.task.id, .registered j.task.name⟩
  calc (ofGraph g launch run).registrations.map (·.1)
      = (ofGraph g launch run).jobs.toList.zipIdx.map (register ∘ Prod.fst) := by
        rw [registrations, hgated, List.map_map]
        rfl
    _ = (g.orderedTasks.map (jobOf g run)).map register := by
        rw [← List.map_map, List.zipIdx_map_fst, hjobs]
    _ = g.orderedTasks.map fun t => ⟨t.id, .registered t.name⟩ := by
        rw [List.map_map]
        rfl

/-- **The jobs of a graph wait for one another as the dependencies say.** -/
theorem linked_ofGraph (hg : g.WellFormed) (launch : Launcher) (run : RunId) :
    (ofGraph g launch run).Linked where
  gated h := by
    obtain ⟨t, -, -, rfl⟩ := (getElem?_jobs_ofGraph_iff hg).1 h
    rfl
  id_inj h h' hid := by
    obtain ⟨t, -, hi, rfl⟩ := (getElem?_jobs_ofGraph_iff hg).1 h
    obtain ⟨t', -, hk, rfl⟩ := (getElem?_jobs_ofGraph_iff hg).1 h'
    have hid : t.id = t'.id := hid
    exact Option.some.inj
      (((placeOf_eq_some_iff hg.order_nodup).2 (hid ▸ hi)).symm.trans
        ((placeOf_eq_some_iff hg.order_nodup).2 hk))
  mem_awaited h d := by
    obtain ⟨t, -, -, rfl⟩ := (getElem?_jobs_ofGraph_iff hg).1 h
    simp only [jobOf, Job.awaited, Option.getD_some, List.mem_filterMap]
    constructor
    · rintro ⟨id, hid, hd⟩
      rw [placeOf_eq_some_iff hg.order_nodup] at hd
      obtain ⟨u, hu, rfl⟩ := hg.exists_task hd
      exact ⟨_, (getElem?_jobs_ofGraph_iff hg).2 ⟨u, hu, hd, rfl⟩, hid⟩
    · rintro ⟨j', hj', hid⟩
      obtain ⟨u, -, hd, rfl⟩ := (getElem?_jobs_ofGraph_iff hg).1 hj'
      exact ⟨u.id, hid, (placeOf_eq_some_iff hg.order_nodup).2 hd⟩
  declared h id hid := by
    obtain ⟨t, ht, -, rfl⟩ := (getElem?_jobs_ofGraph_iff hg).1 h
    obtain ⟨u, hu, rfl⟩ := List.mem_map.1 (hg.declared t ht id hid)
    obtain ⟨d, -, hd⟩ := exists_job_of_mem hg launch run hu
    exact ⟨d, _, hd, rfl⟩
  earlier h d hd := by
    obtain ⟨t, ht, hi, rfl⟩ := (getElem?_jobs_ofGraph_iff hg).1 h
    simp only [jobOf, Job.awaited, Option.getD_some, List.mem_filterMap] at hd
    obtain ⟨id, hid, hd⟩ := hd
    rw [placeOf_eq_some_iff hg.order_nodup] at hd
    obtain ⟨k, hk, hplace⟩ := hg.exists_earlier hi ht hid
    rw [← placeOf_eq_some_iff hg.order_nodup] at hplace hd
    rwa [Option.some.inj (hd.symm.trans hplace)]

end Plan

/-! ### The state of a task -/

namespace Machine

variable {p : Plan} {j : Job} {k : Nat} {m : Machine} {interval limit : Nat} {world : Machine}

/-- Where every event is about the task of the job that emitted it, the changes of a task are those
that its job has emitted. -/
lemma changesOf_events_of_tagged (hp : p.Linked)
    (htagged : ∀ e ∈ m.emissions, ∃ j, p.jobs[e.job]? = some j ∧ e.event.task = j.task.id)
    (hj : p.jobs[k]? = some j) : SystemState.changesOf j.task.id m.events = m.toldBy k := by
  have hfilter : (m.emissions.reverse.filter fun e => decide (e.event.task = j.task.id)) =
      m.emissions.reverse.filter fun e => decide (e.job = k) := by
    refine List.filter_congr fun e he => ?_
    obtain ⟨j', hj', htask⟩ := htagged e (List.mem_reverse.1 he)
    rw [htask, decide_eq_decide]
    constructor
    · exact fun hid => hp.id_inj hj' hj hid
    · rintro rfl
      rw [Option.some.inj (hj'.symm.trans hj)]
  rw [SystemState.changesOf, events, List.filter_map, List.map_map, toldBy, ← hfilter]
  rfl

/-- The changes of a task are those that its job has emitted. -/
lemma Reached.changesOf_events (hp : p.Linked) (h : Reached p interval world m)
    (hj : p.jobs[k]? = some j) : SystemState.changesOf j.task.id m.events = m.toldBy k :=
  changesOf_events_of_tagged hp (fun _ he => h.tagged he) hj

/-- A task that no job has does not occur. -/
lemma Reached.get?_fold_events_of_forall_ne (h : Reached p interval world m) {id : TaskId}
    (hid : ∀ (k : Nat) (j : Job), p.jobs[k]? = some j → j.task.id ≠ id) :
    (SystemState.empty.fold m.events).get? id = none := by
  refine SystemState.get?_fold_of_forall_ne (fun e he => ?_) SystemState.empty
  obtain ⟨x, hx, rfl⟩ := List.mem_map.1 he
  obtain ⟨j, hj, htask⟩ := h.tagged (List.mem_reverse.1 hx)
  rw [htask]
  exact hid _ j hj

/-- A task that occurs is that of a job. -/
lemma Reached.exists_job_of_fold (h : Reached p interval world m) {id : TaskId} {u : TaskState}
    (hu : (SystemState.empty.fold m.events).get? id = some u) :
    ∃ (k : Nat) (j : Job), p.jobs[k]? = some j ∧ j.task.id = id := by
  by_contra hnone
  rw [h.get?_fold_events_of_forall_ne fun k j hj hid => hnone ⟨k, j, hj, hid⟩] at hu
  cases hu

/-- **The state of a task after all events is what its job has emitted**, and that is what the phase
of the job says. -/
theorem Reached.get?_fold_events (hslots : Slots.ofLimit? limit = .ok world.slots) (hp : p.Linked)
    (h : Reached p interval world m) (hj : p.jobs[k]? = some j) {a : Phase}
    (ha : m.phaseOf? k = some a) :
    ∃ cs, a.Told m.interrupted cs ∧ m.toldBy k = j.registration ++ cs ∧
      (SystemState.empty.fold m.events).get? j.task.id =
        some (cs.foldl TaskState.apply (.fresh j.task.id j.task.name)) := by
  obtain ⟨cs, hcs, htold⟩ := h.told hslots hj ha
  refine ⟨cs, htold, hcs, ?_⟩
  rw [SystemState.get?_fold, h.changesOf_events hp hj, hcs, Job.registration, if_pos (hp.gated hj)]
  exact TaskState.foldl_learn?_some cs (.fresh j.task.id j.task.name)

/-! ### Interrupts that nobody asked for -/

/-- A run that is not interrupted, and whose computations never say so themselves, interrupts
nobody. -/
lemma Reached.outcome_ne_interrupted (hslots : Slots.ofLimit? limit = .ok world.slots)
    (h : Reached p interval world m) (hm : m.interrupted = false) (hp : p.Linked)
    (hends : p.Ends fun e => e ≠ .fail .interrupted) (i : Nat) :
    m.outcomeOf? i ≠ some .interrupted := by
  induction i using Nat.strong_induction_on with
  | _ i ih =>
    intro ho
    obtain ⟨a, ha, hended⟩ := hasEnded_of_outcomeOf? ho
    obtain ⟨j, hj⟩ := h.job_of_phaseOf? ha
    have hplain : ∀ e : Ending, e.IsPlain → e ≠ .fail .interrupted := by
      rintro e he rfl
      cases he
    have hmet := h.ends hslots hends hplain ha
    have hgated := h.gated hslots hj ha
    rw [outcomeOf?, ha] at ho
    cases a with
    | ended outcome result =>
      obtain rfl : outcome = .interrupted := Option.some.inj ho
      cases result with
      | some r =>
        rcases hmet with hint | hne
        · rw [hm] at hint; cases hint
        · exact hne rfl
      | none =>
        rcases hgated with ⟨h, -⟩ | ⟨-, hint | ⟨d, hd, hdep⟩⟩
        · cases h
        · rw [hm] at hint; cases hint
        · exact ih d (hp.earlier hj d hd) hdep
    | crashed message => cases ho
    | _ => cases hended

end Machine

/-! ### Results of a run -/

namespace GraphResult

variable {p : Plan} {m : Machine} {i : Nat} {j : Job}

/-- A job is collected with its state exactly if both stand at the same place. -/
lemma mem_zip_jobs {s : JobState} : (j, s) ∈ p.jobs.toList.zip m.jobs.toList ↔
    ∃ i : Nat, p.jobs[i]? = some j ∧ m.jobs[i]? = some s := by
  rw [List.mem_iff_getElem?]
  refine exists_congr fun i => ?_
  rw [List.getElem?_zip_eq_some, Array.getElem?_toList, Array.getElem?_toList]

/-- The outcome of a task is that of its job. -/
lemma mem_outcomes_iff (hp : p.Linked) (hj : p.jobs[i]? = some j) {outcome : NodeOutcome} :
    (j.task.id, outcome) ∈ (ofMachine p m).outcomes ↔
      ∃ result, m.phaseOf? i = some (.ended outcome result) := by
  rw [ofMachine, List.mem_filterMap]
  constructor
  · rintro ⟨⟨j', s⟩, hmem, hout⟩
    obtain ⟨k, hk, hs⟩ := mem_zip_jobs.1 hmem
    simp only [outcomeOf] at hout
    split at hout
    next result hphase =>
      obtain ⟨hid, rfl⟩ := Prod.mk.inj (Option.some.inj hout)
      obtain rfl := hp.id_inj hk hj hid
      exact ⟨result, by rw [Machine.phaseOf?_of_state hs, hphase]⟩
    next => cases hout
  · rintro ⟨result, ha⟩
    obtain ⟨s, hs, hphase⟩ := Option.map_eq_some_iff.1 ha
    exact ⟨(j, s), mem_zip_jobs.2 ⟨i, hj, hs⟩, by simp only [outcomeOf, hphase]⟩

/-- The result of a task that was handed over is that of its job. -/
lemma mem_results_of_ended (hj : p.jobs[i]? = some j) {outcome : NodeOutcome} {r : TaskResult}
    (ha : m.phaseOf? i = some (.ended outcome (some r))) :
    (j.task.id, r) ∈ (ofMachine p m).results := by
  obtain ⟨s, hs, hphase⟩ := Option.map_eq_some_iff.1 ha
  exact List.mem_filterMap.2
    ⟨(j, s), mem_zip_jobs.2 ⟨i, hj, hs⟩, by simp only [resultOf, hphase]⟩

end GraphResult

/-! ### A small graph -/

/-- Two tasks that succeed at once, of which `b` depends on `a`. -/
def chainTasks : List TaskDefinition :=
  [.ofComputation ⟨"a"⟩ fun _ => .finish (.ok .null),
    { TaskDefinition.ofComputation ⟨"b"⟩ fun _ => .finish (.ok .null) with
      dependencies := [⟨"a"⟩], dependencies_nodup := by simp }]

/-- The graph of the two tasks. -/
def chainGraph : TaskGraph := ⟨chainTasks, [⟨"a"⟩, ⟨"b"⟩]⟩

/-- The jobs of the two tasks. -/
def chainPlan : Plan := .ofGraph chainGraph (fun _ _ => .error "") default

/-- Task `a` runs to its end, and task `b` makes `moves` moves once it has heard of it. -/
def chainActions (moves : Nat) : List Action :=
  List.replicate 12 (.move 0 {}) ++ .arrive 1 0 :: List.replicate moves (.move 1 {})

end Taskflow
