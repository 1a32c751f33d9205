import Mathlib.Logic.Relation
import Taskflow.Proofs.Graph.Order
import Taskflow.Proofs.State.Outline
import Taskflow.Proofs.Run.Lifecycle
set_option autoImplicit false

/-!
# One task after the other

What a graph comes to if its tasks are taken one by one in their order: a task all of whose
dependencies have succeeded makes its attempts, until one succeeds or no retry is left; any other
task is blocked. What an attempt does is given.

## Main definitions

* `Performance`, `Behaviour` — what the attempts of the tasks do.
* `TaskDefinition.execution` — the changes of a task that is executed.
* `TaskGraph.sequential` — the state after all tasks.
* `TaskDefinition.Achieves` — some attempt within the policy succeeds.
* `TaskGraph.Decided` — every task of a state is decided by its dependencies.

## Main results

* `TaskGraph.decided_sequential` — the sequential state is decided.
* `TaskGraph.Decided.hasSucceeded_iff` — in a decided state, who has succeeded is known from the
  behaviour.
* `TaskGraph.Decided.outline_eq` — decided states have the same outline, task by task.
-/

namespace Taskflow

open Relation

/-! ### Attempts -/

/-- What an attempt does: the lines that it puts out, and its result. -/
structure Performance where
  lines : List (Stream × String)
  result : Except TaskError Json

namespace Performance

/-- How the attempt ends. -/
def ending (a : Performance) : Ending :=
  match a.result with
  | .ok value => .ok value
  | .error e => .fail e

/-- The changes that put out the lines. -/
def outputs (lines : List (Stream × String)) : List TaskChange :=
  lines.map fun l => .output l.1 l.2

end Performance

/-- What every attempt of every task does, counted from zero. -/
abbrev Behaviour := TaskId → Nat → Performance

namespace TaskDefinition

variable (t : TaskDefinition) (perform : Nat → Performance)

/-- The changes of a task from the end of the lines of attempt `n` on, if `left` retries are
left. -/
def changesAfter : (left n : Nat) → List TaskChange
  | 0, n =>
    match (perform n).result with
    | .ok value => [.completed .epoch (.success value)]
    | .error e => [.completed .epoch (.ofError e)]
  | left + 1, n =>
    match (perform n).result with
    | .ok value => [.completed .epoch (.success value)]
    | .error _ =>
      .retrying (.ofNat (n + 1)) t.effectiveRetryPolicy.maxAttempts .epoch ::
        (Performance.outputs (perform (n + 1)).lines ++ changesAfter left (n + 1))

/-- The changes of a task from the beginning of attempt `n` on, if `left` retries are left. -/
def changesFrom (left n : Nat) : List TaskChange :=
  Performance.outputs (perform n).lines ++ t.changesAfter perform left n

/-- The changes of a task that is executed. -/
def execution : List TaskChange :=
  .started .epoch :: t.changesFrom perform t.effectiveRetryPolicy.maxRetries.toNat 0

/-- Some attempt within the policy succeeds. -/
def Achieves : Prop :=
  ∃ n ≤ t.effectiveRetryPolicy.maxRetries.toNat, ∃ value, (perform n).result = .ok value

end TaskDefinition

/-! ### Tasks one by one -/

namespace SystemState

/-- Whether a task has succeeded. -/
def hasSucceeded (s : SystemState) (id : TaskId) : Bool :=
  (s.get? id).any fun t => decide (t.status = .succeeded)

/-- The turn of one task: it is executed if all its dependencies have succeeded. -/
def settle (b : Behaviour) (s : SystemState) (t : TaskDefinition) : SystemState :=
  match t.dependencies.find? fun d => !s.hasSucceeded d with
  | none => s.fold ((t.execution (b t.id)).map (⟨t.id, ·⟩))
  | some d => s.apply ⟨t.id, .blocked d⟩

end SystemState

namespace TaskGraph

/-- All tasks are registered, and then each has its turn, in the order of the graph. -/
def sequential (g : TaskGraph) (b : Behaviour) : SystemState :=
  g.orderedTasks.foldl (SystemState.settle b)
    (SystemState.empty.fold (g.orderedTasks.map fun t => ⟨t.id, .registered t.name⟩))

end TaskGraph

/-! ### What an execution comes to -/

/-- Lines are progress, and have no times. -/
lemma Performance.progress_outputs {lines : List (Stream × String)} {c : TaskChange}
    (hc : c ∈ outputs lines) : c.isProgress = true ∧ c.outline = c := by
  obtain ⟨l, -, rfl⟩ := List.mem_map.1 hc
  exact ⟨rfl, rfl⟩

namespace TaskDefinition

open TaskChange

/-- Success is the last change, however many retries are left. -/
lemma changesAfter_of_ok {t : TaskDefinition} {perform : Nat → Performance} {n : Nat} {value : Json}
    (h : (perform n).result = .ok value) (left : Nat) :
    t.changesAfter perform left n = [.completed .epoch (.success value)] := by
  cases left <;> simp [changesAfter, h]

/-- A failure is the last change if no retry is left. -/
lemma changesAfter_zero_of_error {t : TaskDefinition} {perform : Nat → Performance} {n : Nat}
    {e : TaskError} (h : (perform n).result = .error e) :
    t.changesAfter perform 0 n = [.completed .epoch (.ofError e)] := by
  simp [changesAfter, h]

/-- A failure is followed by the next attempt if a retry is left. -/
lemma changesAfter_succ_of_error {t : TaskDefinition} {perform : Nat → Performance} {n : Nat}
    {e : TaskError} (h : (perform n).result = .error e) (left : Nat) :
    t.changesAfter perform (left + 1) n =
      .retrying (.ofNat (n + 1)) t.effectiveRetryPolicy.maxAttempts .epoch ::
        t.changesFrom perform left (n + 1) := by
  simp [changesAfter, changesFrom, h]

/-- What comes from attempt `n` on is progress and then an end, with success exactly if one of these
attempts succeeds. -/
lemma changesAfter_eq (t : TaskDefinition) (perform : Nat → Performance) (left n : Nat) :
    ∃ body outcome, t.changesAfter perform left n = body ++ [.completed .epoch outcome] ∧
      (∀ c ∈ body, c.isProgress = true ∧ c.outline = c) ∧
      (outcome.isSuccess = true ↔
        ∃ k, n ≤ k ∧ k ≤ n + left ∧ ∃ v, (perform k).result = .ok v) := by
  induction left generalizing n with
  | zero =>
    cases h : (perform n).result with
    | ok v =>
      refine ⟨[], .success v, changesAfter_of_ok h 0, by simp, ?_⟩
      exact ⟨fun _ => ⟨n, le_rfl, le_rfl, v, h⟩, fun _ => rfl⟩
    | error e =>
      refine ⟨[], .ofError e, changesAfter_zero_of_error h, by simp, ?_⟩
      refine ⟨fun hs => Bool.noConfusion hs, ?_⟩
      rintro ⟨k, hnk, hkn, v, hv⟩
      obtain rfl : k = n := by omega
      rw [h] at hv
      cases hv
  | succ left ih =>
    cases h : (perform n).result with
    | ok v =>
      refine ⟨[], .success v, changesAfter_of_ok h _, by simp, ?_⟩
      exact ⟨fun _ => ⟨n, le_rfl, by omega, v, h⟩, fun _ => rfl⟩
    | error e =>
      obtain ⟨body, outcome, heq, hbody, hsucc⟩ := ih (n + 1)
      refine ⟨.retrying (.ofNat (n + 1)) t.effectiveRetryPolicy.maxAttempts .epoch ::
        (Performance.outputs (perform (n + 1)).lines ++ body), outcome, ?_, ?_, ?_⟩
      · rw [changesAfter_succ_of_error h, changesFrom, heq]
        simp
      · intro c hc
        rcases List.mem_cons.1 hc with rfl | hc
        · exact ⟨rfl, rfl⟩
        · exact (List.mem_append.1 hc).elim Performance.progress_outputs (hbody c)
      · rw [hsucc]
        constructor
        · rintro ⟨k, hnk, hkn, hv⟩
          exact ⟨k, by omega, by omega, hv⟩
        · rintro ⟨k, hnk, hkn, v, hv⟩
          have hne : k ≠ n := by
            rintro rfl
            rw [h] at hv
            cases hv
          exact ⟨k, by omega, by omega, v, hv⟩

/-- An execution is a life that ends, with success exactly if some attempt succeeds; it has no
times. -/
lemma execution_eq (t : TaskDefinition) (perform : Nat → Performance) : ∃ outcome,
    Completed outcome (t.execution perform) ∧ (outcome.isSuccess = true ↔ t.Achieves perform) ∧
      (t.execution perform).map TaskChange.outline = t.execution perform := by
  obtain ⟨body, outcome, heq, hbody, hsucc⟩ :=
    changesAfter_eq t perform t.effectiveRetryPolicy.maxRetries.toNat 0
  have hexec : t.execution perform = (.started .epoch ::
      (Performance.outputs (perform 0).lines ++ body)) ++ [.completed .epoch outcome] := by
    rw [execution, changesFrom, heq]
    simp
  have hmiddle : ∀ c ∈ Performance.outputs (perform 0).lines ++ body,
      c.isProgress = true ∧ c.outline = c := fun c hc =>
    (List.mem_append.1 hc).elim Performance.progress_outputs (hbody c)
  refine ⟨outcome, ⟨_, .epoch, ⟨.epoch, _, rfl, fun c hc => (hmiddle c hc).1⟩, hexec⟩, ?_, ?_⟩
  · rw [hsucc, Achieves]
    simp
  · rw [hexec, List.map_append, List.map_cons,
      List.map_congr_left fun c hc => (hmiddle c hc).2, List.map_id']
    rfl

/-- A task that is executed succeeds or fails, as it achieves something or not. -/
lemma status_execution (t : TaskDefinition) (perform : Nat → Performance) (s : TaskState) :
    (((t.execution perform).foldl TaskState.apply s).status = .succeeded ↔ t.Achieves perform) ∧
      (((t.execution perform).foldl TaskState.apply s).status = .failed ↔
        ¬ t.Achieves perform) := by
  obtain ⟨outcome, hcompleted, hsucc, -⟩ := t.execution_eq perform
  rw [hcompleted.status_eq s, ← hsucc]
  cases outcome.isSuccess <;> simp

/-- No execution registers a task. -/
lemma execution_not_registered (t : TaskDefinition) (perform : Nat → Performance) :
    ∀ c ∈ t.execution perform, ∀ name, c ≠ .registered name := by
  obtain ⟨outcome, ⟨body, time, ⟨time', rest, rfl, hrest⟩, heq⟩, -, -⟩ := execution_eq t perform
  rw [heq]
  rintro c hc name rfl
  rcases List.mem_append.1 hc with hc | hc
  · rcases List.mem_cons.1 hc with h | h
    · cases h
    · cases hrest _ h
  · cases List.mem_singleton.1 hc

end TaskDefinition

/-! ### Decided states -/

namespace TaskGraph

variable {g : TaskGraph} {b : Behaviour} {s s' : SystemState}

/-- Every task of a state is decided by its dependencies: if they have all succeeded it has been
executed, and otherwise it has been blocked. -/
def Decided (g : TaskGraph) (b : Behaviour) (s : SystemState) : Prop :=
  ∀ t ∈ g.tasks, ∃ cs : List TaskChange,
    s.get? t.id = some (cs.foldl TaskState.apply (.fresh t.id t.name)) ∧
      cs.map TaskChange.outline =
        if t.dependencies.all s.hasSucceeded then t.execution (b t.id) else [.blocked ⟨""⟩]

/-- All those on which a task depends, directly or not, achieve something. -/
def DependenciesAchieve (g : TaskGraph) (b : Behaviour) (t : TaskDefinition) : Prop :=
  ∀ u ∈ g.tasks, TransGen g.DependsOn u.id t.id → u.Achieves (b u.id)

/-- The dependencies of a task achieve something if its direct dependencies do, and theirs. -/
lemma dependenciesAchieve_iff (hg : g.WellFormed) {t : TaskDefinition} (ht : t ∈ g.tasks) :
    g.DependenciesAchieve b t ↔ ∀ u ∈ g.tasks, u.id ∈ t.dependencies →
      u.Achieves (b u.id) ∧ g.DependenciesAchieve b u := by
  have hdirect : ∀ {id : TaskId}, g.DependsOn id t.id ↔ id ∈ t.dependencies := by
    intro id
    rw [DependsOn, hg.dependenciesOf_of_mem ht]
  constructor
  · intro h u hu hdep
    exact ⟨h u hu (.single (hdirect.2 hdep)),
      fun v hv hvu => h v hv (hvu.tail (hdirect.2 hdep))⟩
  · intro h u hu hut
    obtain ⟨d, hud, hdt⟩ := TransGen.tail'_iff.1 hut
    obtain ⟨v, hv, rfl⟩ := List.mem_map.1 (hg.declared t ht d (hdirect.1 hdt))
    obtain ⟨hachieve, hdeps⟩ := h v hv (hdirect.1 hdt)
    rcases reflTransGen_iff_eq_or_transGen.1 hud with heq | hud
    · obtain rfl := List.inj_on_of_nodup_map hg.ids_nodup hv hu heq
      exact hachieve
    · exact hdeps u hu hud

section Decided

variable (hg : g.WellFormed) (h : g.Decided b s) {t : TaskDefinition} (ht : t ∈ g.tasks)
include h ht

/-- In a decided state, a task has succeeded if its dependencies have and an attempt succeeds. -/
lemma Decided.hasSucceeded_iff_direct : s.hasSucceeded t.id = true ↔
    t.dependencies.all s.hasSucceeded = true ∧ t.Achieves (b t.id) := by
  obtain ⟨cs, hget, hcs⟩ := h t ht
  rw [SystemState.hasSucceeded, hget, Option.any_some, decide_eq_true_eq,
    TaskState.status_foldl_outline, hcs]
  by_cases hall : t.dependencies.all s.hasSucceeded = true
  · rw [if_pos hall, (t.status_execution (b t.id) _).1, and_iff_right hall]
  · rw [if_neg hall]
    constructor
    · intro hs
      cases hs
    · exact fun hs => absurd hs.1 hall

omit ht in
include hg in
/-- **In a decided state, who has succeeded is known from the behaviour.**

**Proof sketch.** Induction on the place of the task in the order: its dependencies stand before
it. -/
theorem Decided.hasSucceeded_iff (ht : t ∈ g.tasks) : s.hasSucceeded t.id = true ↔
    t.Achieves (b t.id) ∧ g.DependenciesAchieve b t := by
  obtain ⟨i, hi⟩ := List.mem_iff_getElem?.1
    (hg.order_perm.mem_iff.2 (List.mem_map.2 ⟨t, ht, rfl⟩) : t.id ∈ g.order)
  induction i using Nat.strong_induction_on generalizing t with
  | _ i ih =>
    rw [h.hasSucceeded_iff_direct ht, and_comm]
    refine and_congr_right fun _ => ?_
    rw [List.all_eq_true, dependenciesAchieve_iff hg ht]
    constructor
    · intro hall u hu hdep
      obtain ⟨k, hk, hku⟩ := hg.exists_earlier hi ht hdep
      exact (ih k hk hu hku).1 (hall u.id hdep)
    · intro hall d hd
      obtain ⟨u, hu, rfl⟩ := List.mem_map.1 (hg.declared t ht d hd)
      obtain ⟨k, hk, hku⟩ := hg.exists_earlier hi ht hd
      exact (ih k hk hu hku).2 (hall u hu hd)

include hg in
/-- In a decided state, all direct dependencies have succeeded if all dependencies achieve
something. -/
lemma Decided.all_hasSucceeded_iff :
    t.dependencies.all s.hasSucceeded = true ↔ g.DependenciesAchieve b t := by
  rw [List.all_eq_true, dependenciesAchieve_iff hg ht]
  constructor
  · exact fun hall u hu hdep => (h.hasSucceeded_iff hg hu).1 (hall u.id hdep)
  · intro hall d hd
    obtain ⟨u, hu, rfl⟩ := List.mem_map.1 (hg.declared t ht d hd)
    exact (h.hasSucceeded_iff hg hu).2 (hall u hu hd)

include hg in
/-- **Decided states have the same outline, task by task.** -/
theorem Decided.outline_eq (h' : g.Decided b s') :
    (s.get? t.id).map TaskState.outline = (s'.get? t.id).map TaskState.outline := by
  obtain ⟨cs, hget, hcs⟩ := h t ht
  obtain ⟨cs', hget', hcs'⟩ := h' t ht
  have hsame : t.dependencies.all s.hasSucceeded = t.dependencies.all s'.hasSucceeded := by
    rw [Bool.eq_iff_iff, h.all_hasSucceeded_iff hg ht, h'.all_hasSucceeded_iff hg ht]
  rw [hget, hget', Option.map_some, Option.map_some, TaskState.outline_foldl,
    TaskState.outline_foldl, hcs, hcs', hsame]

include hg in
/-- **What a decided state says of a task**: it has succeeded if it and all its dependencies achieve
something, it has failed if only its own attempts are exhausted, and otherwise it waits for ever. -/
theorem Decided.status_iff : ∃ u, s.get? t.id = some u ∧
    (u.status = .succeeded ↔ g.DependenciesAchieve b t ∧ t.Achieves (b t.id)) ∧
    (u.status = .failed ↔ g.DependenciesAchieve b t ∧ ¬ t.Achieves (b t.id)) ∧
    (¬ g.DependenciesAchieve b t →
      u.status = .pending ∧ u.blockedBy.isSome = true ∧ u.startedAt = none) := by
  obtain ⟨cs, hget, hcs⟩ := h t ht
  refine ⟨_, hget, ?_⟩
  by_cases hall : g.DependenciesAchieve b t
  · rw [if_pos ((h.all_hasSucceeded_iff hg ht).2 hall)] at hcs
    rw [TaskState.status_foldl_outline, hcs]
    obtain ⟨hsucceeded, hfailed⟩ := t.status_execution (b t.id) (.fresh t.id t.name)
    rw [hsucceeded, hfailed]
    exact ⟨(and_iff_right hall).symm, (and_iff_right hall).symm, fun hnot => absurd hall hnot⟩
  · rw [if_neg (mt (h.all_hasSucceeded_iff hg ht).1 hall)] at hcs
    -- the only change is that the task is blocked
    obtain ⟨c, rfl, hc⟩ := List.map_eq_singleton_iff.1 hcs
    cases c with
    | blocked d => exact ⟨by simp [hall, TaskState.apply, TaskState.fresh],
        by simp [hall, TaskState.apply, TaskState.fresh], fun _ => ⟨rfl, rfl, rfl⟩⟩
    | _ => cases hc

end Decided

/-! ### The sequential state is decided -/

/-- The turn of a task leaves the other tasks alone. -/
lemma get?_settle_of_ne {t : TaskDefinition} {id : TaskId} (hne : t.id ≠ id) (s : SystemState) :
    (s.settle b t).get? id = s.get? id := by
  unfold SystemState.settle
  split
  · refine SystemState.get?_fold_of_forall_ne (fun e he => ?_) s
    obtain ⟨c, -, rfl⟩ := List.mem_map.1 he
    exact hne
  · rw [SystemState.get?_apply, if_neg hne]

/-- The turns of tasks leave all other tasks alone. -/
lemma get?_foldl_settle_of_notMem {ts : List TaskDefinition} {id : TaskId}
    (hid : id ∉ ts.map (·.id)) (s : SystemState) :
    (ts.foldl (SystemState.settle b) s).get? id = s.get? id := by
  induction ts generalizing s with
  | nil => rfl
  | cons t rest ih =>
    rw [List.map_cons, List.mem_cons, not_or] at hid
    rw [List.foldl_cons, ih hid.2, get?_settle_of_ne (Ne.symm hid.1)]

/-- The turn of a task that has only been registered. -/
lemma get?_settle_self {t : TaskDefinition} (hs : s.get? t.id = some (.fresh t.id t.name)) :
    ∃ cs : List TaskChange,
      (s.settle b t).get? t.id = some (cs.foldl TaskState.apply (.fresh t.id t.name)) ∧
        cs.map TaskChange.outline =
          if t.dependencies.all s.hasSucceeded then t.execution (b t.id) else [.blocked ⟨""⟩] := by
  unfold SystemState.settle
  split
  next hnone =>
    have hall : t.dependencies.all s.hasSucceeded = true := by
      rw [List.all_eq_true]
      exact fun d hd => by simpa using List.find?_eq_none.1 hnone d hd
    obtain ⟨outcome, -, -, hout⟩ := t.execution_eq (b t.id)
    refine ⟨t.execution (b t.id), ?_, by rw [hout, if_pos hall]⟩
    have hchanges : SystemState.changesOf t.id ((t.execution (b t.id)).map fun c => ⟨t.id, c⟩) =
        t.execution (b t.id) := by
      simp [SystemState.changesOf, List.filter_map, Function.comp_def]
    rw [SystemState.get?_fold, hchanges, hs]
    exact TaskState.foldl_learn?_some _ (.fresh t.id t.name)
  next d hd =>
    have hnot : ¬ t.dependencies.all s.hasSucceeded = true := by
      rw [List.all_eq_true]
      intro hall
      simpa [hall d (List.mem_of_find?_eq_some hd)] using List.find?_some hd
    refine ⟨[.blocked d], ?_, by rw [if_neg hnot]; rfl⟩
    rw [SystemState.get?_apply, if_pos rfl, hs]
    rfl

/-- Registered tasks are fresh. -/
lemma get?_registrations {ts : List TaskDefinition} (hids : (ts.map (·.id)).Nodup)
    {t : TaskDefinition} (ht : t ∈ ts) (s : SystemState) :
    (s.fold (ts.map fun t => ⟨t.id, .registered t.name⟩)).get? t.id =
      some (.fresh t.id t.name) := by
  induction ts generalizing s with
  | nil => cases ht
  | cons u rest ih =>
    rw [List.map_cons, List.nodup_cons] at hids
    rw [List.map_cons, SystemState.fold_cons]
    rcases List.mem_cons.1 ht with rfl | ht
    · rw [SystemState.get?_fold_of_forall_ne, SystemState.get?_apply, if_pos rfl]
      intro e he
      obtain ⟨v, hv, rfl⟩ := List.mem_map.1 he
      exact fun heq => hids.1 (List.mem_map.2 ⟨v, hv, heq⟩)
    · exact ih hids.2 ht _

/-- In the sequential state there are no other tasks than those of the graph. -/
lemma get?_sequential_of_forall_ne {id : TaskId} (hid : ∀ t ∈ g.orderedTasks, t.id ≠ id) :
    (g.sequential b).get? id = none := by
  have hnot : id ∉ g.orderedTasks.map (·.id) := by
    intro hmem
    obtain ⟨t, ht, heq⟩ := List.mem_map.1 hmem
    exact hid t ht heq
  rw [sequential, get?_foldl_settle_of_notMem hnot, SystemState.get?_fold_of_forall_ne]
  · rfl
  · intro e he
    obtain ⟨t, ht, rfl⟩ := List.mem_map.1 he
    exact hid t ht

/-- **The sequential state is decided.**

**Proof sketch.** When a task has its turn, its dependencies have had theirs and it has only been
registered; afterwards neither it nor they are touched again. -/
theorem decided_sequential (hg : g.WellFormed) (b : Behaviour) : g.Decided b (g.sequential b) := by
  intro t ht
  have hids : (g.orderedTasks.map (·.id)).Nodup := hg.map_id_orderedTasks ▸ hg.order_nodup
  have hmem : t ∈ g.orderedTasks := hg.mem_orderedTasks.2 ht
  obtain ⟨before, after, hsplit⟩ := List.append_of_mem hmem
  have hnodup := hids
  rw [hsplit, List.map_append, List.map_cons, List.nodup_append, List.nodup_cons] at hnodup
  obtain ⟨-, ⟨hafter, -⟩, hdisjoint⟩ := hnodup
  have hbefore : t.id ∉ before.map (·.id) := fun hin =>
    hdisjoint t.id hin t.id List.mem_cons_self rfl
  -- the state when `t` has its turn
  let init := SystemState.empty.fold (g.orderedTasks.map fun t => ⟨t.id, .registered t.name⟩)
  let mid := before.foldl (SystemState.settle b) init
  have hfinal : g.sequential b = after.foldl (SystemState.settle b) (mid.settle b t) := by
    simp only [sequential, mid, init]
    conv_lhs => rw [hsplit, List.foldl_append, List.foldl_cons]
    rw [← hsplit]
  have hfresh : mid.get? t.id = some (.fresh t.id t.name) :=
    (get?_foldl_settle_of_notMem hbefore init).trans (get?_registrations hids hmem _)
  obtain ⟨cs, hget, hcs⟩ := get?_settle_self (b := b) hfresh
  refine ⟨cs, ?_, ?_⟩
  · rw [hfinal, get?_foldl_settle_of_notMem hafter, hget]
  · rw [hcs]
    have hdeps : ∀ d ∈ t.dependencies, (g.sequential b).hasSucceeded d = mid.hasSucceeded d := by
      intro d hd
      have hd' : d ∈ before.map (·.id) := hg.mem_before_of_dependency hsplit ht hd
      have hne : t.id ≠ d := fun heq => hbefore (heq ▸ hd')
      have hnot : d ∉ after.map (·.id) := fun hin =>
        hdisjoint d hd' d (List.mem_cons_of_mem _ hin) rfl
      rw [SystemState.hasSucceeded, SystemState.hasSucceeded, hfinal,
        get?_foldl_settle_of_notMem hnot, get?_settle_of_ne hne]
    have hall : t.dependencies.all (g.sequential b).hasSucceeded =
        t.dependencies.all mid.hasSucceeded := by
      rw [Bool.eq_iff_iff, List.all_eq_true, List.all_eq_true]
      exact forall₂_congr fun d hd => by rw [hdeps d hd]
    rw [hall]

/-- The sequential state has the tasks in the order of the graph. -/
lemma keys_sequential (g : TaskGraph) (b : Behaviour) :
    (g.sequential b).tasks.keys = (SystemState.empty.fold
      (g.orderedTasks.map fun t => ⟨t.id, .registered t.name⟩)).tasks.keys := by
  unfold sequential
  generalize SystemState.empty.fold _ = s
  induction g.orderedTasks generalizing s with
  | nil => rfl
  | cons t rest ih =>
    have hsettle : (s.settle b t).tasks.keys = s.tasks.keys := by
      unfold SystemState.settle
      split
      · refine SystemState.keys_fold s fun e he name => ?_
        obtain ⟨c, hc, rfl⟩ := List.mem_map.1 he
        exact t.execution_not_registered _ c hc name
      · exact Table.keys_modify _ _ _
    rw [List.foldl_cons, ih, hsettle]

end TaskGraph

end Taskflow
