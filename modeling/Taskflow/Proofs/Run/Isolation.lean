import Mathlib.Data.Set.Basic
import Taskflow.Proofs.Run.Alike
import Taskflow.Proofs.Run.Settlement
import Taskflow.Proofs.Run.Snapshots
import Taskflow.Run.Summary
set_option autoImplicit false

/-!
# Runs one after the other

An executor carries out one graph after the other. All its slots are free whenever a run is over,
and a run shows nothing but its own events. So a run comes to what it would come to if it were the
first one, whatever has become of the tasks of earlier runs.

## Main definitions

* `Machine.Idle` — the worlds that an executor can be in when no run is under way.
* `Machine.results`, `Machine.shown` — what a run can come to, and what it can show, without times.

## Main results

* `Machine.Reached.slots_of_allEnded` — when all jobs have ended, all slots have been given back.
* `Machine.alike_start` — the first run and a later one begin alike.
* `Machine.runs_are_isolated` — all of this for any run of an executor.
-/

namespace Taskflow

open Coordinator (stateAt)

/-- The outcome and the result of a job that has ended. -/
def Phase.settled? : Phase → Option (NodeOutcome × Option TaskResult)
  | .ended outcome result => some (outcome, result)
  | _ => none

namespace GraphResult

/-- What a run has come to, without times. -/
def timeless (r : GraphResult) : GraphResult := { r with state := r.state.timeless }

/-- An outcome is collected of a job that has settled. -/
lemma outcomeOf_eq (j : Job) (s : JobState) :
    outcomeOf j s = s.phase.settled?.map fun x => (j.task.id, x.1) := by
  unfold outcomeOf
  cases s.phase <;> rfl

/-- A result is collected of a job that has settled with one. -/
lemma resultOf_eq (j : Job) (s : JobState) :
    resultOf j s = s.phase.settled?.bind fun x => x.2.map fun r => (j.task.id, r) := by
  unfold resultOf
  cases s.phase with
  | ended outcome result => cases result <;> rfl
  | _ => rfl

end GraphResult

namespace Machine

variable {span limit interval : Nat} {p p' : Plan} {m m' w w' : Machine} {g : TaskGraph}
  {launch : Launcher} {tasks : List TaskDefinition}

/-! ### What machines that are alike have come to -/

/-- Jobs of machines that are alike have ended in the same way. -/
lemma Alike.settled_eq (h : Alike span m m') :
    m.jobs.toList.map (·.phase.settled?) = m'.jobs.toList.map (·.phase.settled?) := by
  have hget : ∀ (n : Machine) (i : Nat),
      (n.jobs.toList.map (·.phase.settled?))[i]? = (n.phaseOf? i).map Phase.settled? := by
    intro n i
    rw [List.getElem?_map, Array.getElem?_toList, phaseOf?, Option.map_map]
    rfl
  refine List.ext_getElem? fun i => ?_
  rw [hget, hget]
  have hphase := h.phases i
  generalize m.phaseOf? i = a, m'.phaseOf? i = b at hphase
  cases hphase with
  | none => rfl
  | some hab => cases hab <;> rfl

/-- **Machines that are alike have come to the same**, but for times. -/
theorem Alike.result_eq (h : Alike span m m') (hp : p.Alike p') :
    (GraphResult.ofMachine p m).timeless = (GraphResult.ofMachine p' m').timeless := by
  have hids : p.jobs.toList.map (·.task.id) = p'.jobs.toList.map (·.task.id) := by
    have hjobs := congrArg (fun a : Array (TaskDefinition × Option (List Nat)) =>
      a.toList.map fun x => x.1.id) hp.jobs_eq
    simpa [Function.comp_def] using hjobs
  have hzip : ∀ {α : Type} (f : TaskId × Option (NodeOutcome × Option TaskResult) → Option α)
      (q : Plan) (n : Machine),
      (q.jobs.toList.zip n.jobs.toList).filterMap (fun j => f (j.1.task.id, j.2.phase.settled?)) =
        ((q.jobs.toList.map (·.task.id)).zip
          (n.jobs.toList.map (·.phase.settled?))).filterMap f := by
    intro α f q n
    rw [List.zip_map, List.filterMap_map]
    rfl
  simp only [GraphResult.ofMachine, GraphResult.timeless, GraphResult.outcomeOf_eq,
    GraphResult.resultOf_eq, h.interrupted_eq, h.coordinator.state_eq]
  rw [hzip (fun x => x.2.map fun y => (x.1, y.1)) p m,
    hzip (fun x => x.2.map fun y => (x.1, y.1)) p' m',
    hzip (fun x => x.2.bind fun y => y.2.map fun r => (x.1, r)) p m,
    hzip (fun x => x.2.bind fun y => y.2.map fun r => (x.1, r)) p' m', hids, h.settled_eq]

/-- Machines that are alike have shown the same, but for times. -/
lemma Alike.snapshots_eq (h : Alike span m m') :
    m.snapshots.map SystemState.timeless = m'.snapshots.map SystemState.timeless := by
  have hpublished := h.coordinator.published_eq
  simp only [snapshots, List.map_cons, List.map_map, Function.comp_def, h.coordinator.slot_eq,
    hpublished]

/-! ### The beginning of a run -/

/-- **Runs begin alike in worlds** with the same slots and the same interrupt, whatever else has
happened there. -/
theorem alike_start (hp : p.Alike p')
    (hreg : p.registrations.map (·.1) = p'.registrations.map (·.1)) (hnow : w.now = w'.now + span)
    (hinterrupted : w.interrupted = w'.interrupted) (hslots : w.slots = w'.slots) :
    Alike span (start p interval w) (start p' interval w') := by
  refine Alike.closeIfEnded
    { now_eq := ?_
      interrupted_eq := ?_
      slots_eq := ?_
      phases := fun i => ?_
      coordinator := ?_ }
  · rw [emitAll_eq, emitAll_eq]
    exact hnow
  · rw [emitAll_eq, emitAll_eq]
    exact hinterrupted
  · rw [emitAll_eq, emitAll_eq]
    exact hslots
  · have hphase : ∀ (q : Plan) (n : Machine),
        ((ready q interval n).emitAll q.registrations).phaseOf? i =
          (q.jobs[i]?).map firstPhase := by
      intro q n
      rw [phaseOf?, emitAll_eq, ready, Array.getElem?_map, Option.map_map]
      rfl
    rw [hphase, hphase]
    have hjob := hp.getElem?_eq i
    cases hj : p.jobs[i]? with
    | none =>
      rw [hj] at hjob
      rw [Option.map_eq_none_iff.1 hjob.symm]
      exact .none
    | some j =>
      obtain ⟨j', hj', -, hgate⟩ := hp.exists_job hj
      rw [hj', Option.map_some, Option.map_some, firstPhase, firstPhase, hgate]
      refine .some (.plain ?_)
      split <;> rfl
  · rw [coordinator_emitAll_ready, coordinator_emitAll_ready, registered, registered, hreg, hnow]
    exact ⟨rfl, rfl, rfl, rfl, rfl, rfl, rfl, rfl, rfl, rfl⟩

/-- Plans of one graph with steady work are alike. -/
lemma alike_ofGraph (hg : g.WellFormed) (hsteady : ∀ t ∈ g.tasks, t.Steady launch)
    (run run' : RunId) : (Plan.ofGraph g launch run).Alike (Plan.ofGraph g launch run') where
  launch_eq := rfl
  jobs_eq := by simp [Plan.ofGraph]
  steady := fun i j hj => by
    obtain ⟨t, ht, -, rfl⟩ := (Plan.getElem?_jobs_ofGraph_iff hg).1 hj
    exact hsteady t ht

/-! ### The end of a run -/

/-- **When all jobs have ended, all slots have been given back**, and nobody stands in the line. -/
lemma Balanced.slots_of_allEnded {total : Nat} (hb : Balanced total m)
    (hall : m.allEnded = true) : m.slots = ⟨total, []⟩ := by
  have hclaim : ∀ i, m.claimOf i = .none := by
    intro i
    rw [claimOf]
    split
    next a ha =>
      have hended := allEnded_iff.1 hall i a ha
      cases a <;> first | rfl | cases hended
    next => rfl
  have hline : m.slots.line = [] := by
    refine List.eq_nil_iff_forall_not_mem.2 fun i hi => ?_
    rw [hb.mem_line, hclaim] at hi
    cases hi
  have hholders : m.holders = ∅ := by
    ext i
    rw [mem_holders, hclaim]
    simp
  have hfree := hb.total_eq
  rw [hholders, Finset.card_empty, Nat.add_zero] at hfree
  rw [← hfree, ← hline]

/-- The same for a run of an executor. -/
theorem Reached.slots_of_allEnded (hslots : Slots.ofLimit? limit = .ok w.slots)
    (h : Reached p interval w m) (hall : m.allEnded = true) :
    m.slots = ⟨Slots.effectiveLimit limit, []⟩ :=
  (h.balanced hslots).slots_of_allEnded hall

/-! ### Executors -/

/-- The worlds that an executor with a limit can be in when no run is under way: nothing has
happened yet, or a run of a graph is over that nobody has interrupted. -/
inductive Idle (limit : Nat) : Machine → Prop
  | fresh {slots : Slots} (h : Slots.ofLimit? limit = .ok slots) : Idle limit (world slots)
  | after {w m : Machine} {tasks : List TaskDefinition} {g : TaskGraph} {launch : Launcher}
    {run : RunId} {interval : Nat} {actions : List Action} (hw : Idle limit w)
    (hg : TaskGraph.build tasks = .ok g)
    (hm : m = (start (.ofGraph g launch run) interval w).run (.ofGraph g launch run) actions)
    (hdone : m.coordinator.isDone = true) (hquiet : m.interrupted = false) : Idle limit m

/-- Between two runs all slots are free and the interrupt has not been triggered. -/
lemma Idle.slots_eq (h : Idle limit w) : Slots.ofLimit? limit = .ok w.slots ∧
    w.slots = ⟨Slots.effectiveLimit limit, []⟩ ∧ w.interrupted = false := by
  induction h with
  | fresh h => exact ⟨h, Slots.ofLimit?_eq_ok h, rfl⟩
  | @after w m tasks g launch run interval actions hw hg hm hdone hquiet ih =>
    obtain ⟨hslots, hall, -⟩ := ih
    have hr : Reached (.ofGraph g launch run) interval w m := hm ▸ reached_run actions
    have hended := hr.allEnded_of_isClosed (hr.tracks.of_isDone hdone).1
    have hfree := hr.slots_of_allEnded hslots hended
    exact ⟨hfree.trans hall.symm ▸ hslots, hfree, hquiet⟩

/-- What a run of a plan can come to that nobody interrupts, without times. -/
def results (p : Plan) (interval : Nat) (w : Machine) : Set GraphResult :=
  {r | ∃ actions, let m := (start p interval w).run p actions
    m.coordinator.isDone = true ∧ m.interrupted = false ∧
      r = (GraphResult.ofMachine p m).timeless}

/-- What a run of a plan can have shown at some moment while nobody interrupts it, without times. -/
def shown (p : Plan) (interval : Nat) (w : Machine) : Set (List SystemState) :=
  {l | ∃ actions, let m := (start p interval w).run p actions
    m.interrupted = false ∧ l = m.snapshots.map SystemState.timeless}

/-- Every snapshot is the state after some of the events of its own run. -/
lemma Reached.exists_stateAt (h : Reached p interval w m) {s : SystemState}
    (hs : s ∈ m.snapshots) : ∃ n, s = stateAt m.events n := by
  rcases h.mem_snapshots hs with rfl | hs
  · obtain ⟨es, hevents, -⟩ := h.events_eq
    refine ⟨(p.registrations.map (·.1)).length, ?_⟩
    rw [stateAt, hevents, List.take_left', registered]
    rfl
  · obtain ⟨taken, marks, hp⟩ := h.publishes
    rw [hp.published_eq] at hs
    obtain ⟨n, -, rfl⟩ := List.mem_map.1 hs
    exact ⟨n, rfl⟩

/-- **Runs are isolated.** An executor has carried out any graphs, one after the other, and nobody
has interrupted it. Whatever has become of their tasks, when the run of a graph begins all slots are
free; and everything that the run shows is the state after some of its own events, with tasks of its
own graph only. If the work of the tasks does not depend on the files that it finds, the run can
come to exactly what the first run of an executor with the same limit can come to, and it can show
exactly the same.

**Proof sketch.** A run that is over has given all slots back. So the run begins like the first run
of an executor, but later; and whatever happens to one of two runs that are alike can happen to the
other, later or earlier by the same span. -/
theorem runs_are_isolated (hw : Idle limit w) (hg : TaskGraph.build tasks = .ok g)
    (hsteady : ∀ t ∈ g.tasks, t.Steady launch) {slots : Slots}
    (hslots : Slots.ofLimit? limit = .ok slots) (run run' : RunId) (interval : Nat) :
    let p := Plan.ofGraph g launch run
    let p' := Plan.ofGraph g launch run'
    (start p interval w).slots = ⟨Slots.effectiveLimit limit, []⟩ ∧
    (∀ actions, let m := (start p interval w).run p actions
      ∀ s ∈ m.snapshots, (∀ id ∈ s.tasks.keys, id ∈ g.order) ∧ ∃ n, s = stateAt m.events n) ∧
    results p interval w = results p' interval (world slots) ∧
    shown p interval w = shown p' interval (world slots) := by
  intro p p'
  have hwf := TaskGraph.wellFormed_of_build hg
  obtain ⟨-, hfree, hquiet⟩ := hw.slots_eq
  have hp : p.Alike p' := alike_ofGraph hwf hsteady run run'
  have hstart : Alike w.now (start p interval w) (start p' interval (world slots)) := by
    refine alike_start hp ?_ (Nat.zero_add _).symm hquiet ?_
    · rw [Plan.registrations_ofGraph, Plan.registrations_ofGraph]
    · rw [hfree]
      exact (Slots.ofLimit?_eq_ok hslots).symm
  refine ⟨start_slots.trans hfree, fun actions s hs => ⟨fun id hid => ?_, ?_⟩, Set.ext fun r => ?_,
    Set.ext fun l => ?_⟩
  · obtain ⟨n, -, hkeys⟩ := (reached_run actions).keys_of_mem_snapshots hwf hs
    rw [hkeys] at hid
    exact List.mem_of_mem_take hid
  · exact (reached_run actions).exists_stateAt hs
  · constructor
    · rintro ⟨actions, hdone, hrun, rfl⟩
      have h := hstart.run_earlier hp actions
      exact ⟨_, h.coordinator.isDone_eq ▸ hdone, h.interrupted_eq ▸ hrun, h.result_eq hp⟩
    · rintro ⟨actions, hdone, hrun, rfl⟩
      have h := hstart.run_later hp actions
      exact ⟨_, h.coordinator.isDone_eq ▸ hdone, h.interrupted_eq ▸ hrun, (h.result_eq hp).symm⟩
  · constructor
    · rintro ⟨actions, hrun, rfl⟩
      have h := hstart.run_earlier hp actions
      exact ⟨_, h.interrupted_eq ▸ hrun, h.snapshots_eq⟩
    · rintro ⟨actions, hrun, rfl⟩
      have h := hstart.run_later hp actions
      exact ⟨_, h.interrupted_eq ▸ hrun, h.snapshots_eq.symm⟩

/-- After a run in which a task was retried, another one failed and the third was blocked, the same
graph can come to the same once more. -/
theorem relay_runs_again :
    let p := Plan.ofGraph relayGraph (fun _ _ => .error "") default
    0 < relayRun.now ∧ (start p 1 relayRun).slots = ⟨1, []⟩ ∧
      (GraphResult.ofMachine p relayRun).timeless ∈ results p 1 relayRun := by
  intro p
  have hbuild : TaskGraph.build relayTasks = .ok relayGraph := rfl
  have hslots : Slots.ofLimit? 1 = .ok ⟨1, []⟩ := rfl
  have hdone : relayRun.coordinator.isDone = true := by decide +kernel
  have hquiet : relayRun.interrupted = false := by decide +kernel
  have hidle : Idle 1 relayRun := .after (.fresh hslots) hbuild rfl hdone hquiet
  have hsteady : ∀ t ∈ relayGraph.tasks, t.Steady fun _ _ => .error "" := by
    refine List.forall_mem_cons.2 ⟨fun n => ?_, List.forall_mem_cons.2 ⟨fun n => .finish _,
      List.forall_mem_singleton.2 fun n => .finish _⟩⟩
    cases n <;> exact .emit _ (.finish _)
  obtain ⟨hfree, -, hresults, -⟩ :=
    runs_are_isolated hidle hbuild hsteady hslots default default 1
  refine ⟨by decide +kernel, hfree, ?_⟩
  rw [hresults]
  exact ⟨relayActions, hdone, hquiet, rfl⟩

end Machine

end Taskflow
