import Taskflow.Proofs.Graph.Edges
set_option autoImplicit false

/-!
# Looking up what was declared

A graph is built by looking up tasks, their dependents and how many of their dependencies are still
open, always by their identifiers. If a look-up that misses were a failure, and so were a count that
falls below zero, then building would never fail this way: only identifiers are looked up that were
declared before.

## Main definitions

* `TaskGraph.lookUp?` — the entries of a table for a list of identifiers.
* `TaskGraph.Frontier.start?`, `TaskGraph.orderOf?`, `TaskGraph.build?` — building a graph with
  checked steps.
* `TaskGraph.orderedTasks?` — the tasks in their order, with checked look-ups.

## Main results

* `TaskGraph.build?_eq` — no step of building a graph fails, whatever the tasks are.
* `TaskGraph.WellFormed.orderedTasks?_eq` — no task of the order is missing.
-/

namespace Taskflow

namespace TaskGraph

variable {α : Type} {tasks : List TaskDefinition} {id : TaskId} {g : TaskGraph}

/-! ### Checked steps -/

/-- The entries of a table for a list of identifiers, each with its identifier; none may be
missing. -/
def lookUp? (table : Table TaskId α) (ids : List TaskId) : Option (List (TaskId × α)) :=
  ids.mapM fun id => (table.get? id).map fun a => (id, a)

/-- The tasks by their identifiers. -/
def taskTable (tasks : List TaskDefinition) : Table TaskId TaskDefinition :=
  .ofList (tasks.map fun t => (t.id, t))

namespace Frontier

/-- As `start`, but the tasks and the counts of their dependencies are looked up. -/
def start? (tasks : List TaskDefinition) : Option Frontier := do
  let found ← lookUp? (taskTable tasks) (tasks.map (·.id))
  let degrees : Table TaskId Nat := .ofList (found.map fun p => (p.1, p.2.dependencies.length))
  let counted ← lookUp? degrees (tasks.map (·.id))
  some ⟨degrees, (counted.filter fun p => decide (p.2 = 0)).map (·.1)⟩

end Frontier

/-- As `orderOf`, but every step is checked, and so are the look-ups of the counts that are left. -/
def orderOf? (edges : Table TaskId (List TaskId)) (tasks : List TaskDefinition) :
    Option (Except (List TaskId) (List TaskId)) := do
  let f ← Frontier.start? tasks
  let (order, f) ← f.takeAll? edges tasks.length
  if order.length = tasks.length then some (.ok order)
  else
    let counted ← lookUp? f.degrees (tasks.map (·.id))
    some (.error ((counted.filter fun p => decide (0 < p.2)).map (·.1)))

/-- As `build`, but every step is checked. The tasks whose dependencies are walked through are
looked up by their identifiers, too. -/
def build? (tasks : List TaskDefinition) : Option (Except GraphError TaskGraph) :=
  match firstRepeated? [] tasks with
  | some id => some (.error (.duplicateTask id))
  | none => do
    let found ← lookUp? (taskTable tasks) (tasks.map (·.id))
    match collectEdges (found.map (·.2)) with
    | .error (dependency, task) => some (.error (.unknownDependency dependency task))
    | .ok edges =>
      match ← orderOf? edges tasks with
      | .ok order => some (.ok ⟨tasks, order⟩)
      | .error involved => some (.error (.circularDependency involved))

/-- As `orderedTasks`, but no task may be missing. -/
def orderedTasks? (g : TaskGraph) : Option (List TaskDefinition) := g.order.mapM g.task?

/-! ### No look-up misses -/

/-- If every item has a value, the list has those values. -/
lemma mapM_eq_some {β : Type} {f : α → Option β} {l : List α} {values : List β}
    (h : l.map f = values.map some) : l.mapM f = some values := by
  induction l generalizing values with
  | nil => rw [List.map_eq_nil_iff.1 h.symm]; rfl
  | cons a rest ih =>
    cases values with
    | nil => cases h
    | cons b values =>
      obtain ⟨hvalue, hrest⟩ := List.cons_eq_cons.1 h
      rw [List.mapM_cons, hvalue, ih hrest]
      rfl

/-- The entries of declared tasks, if the table has one for each of them. -/
lemma lookUp?_eq {table : Table TaskId α} {entry : TaskDefinition → α}
    (h : ∀ t ∈ tasks, table.get? t.id = some (entry t)) :
    lookUp? table (tasks.map (·.id)) = some (tasks.map fun t => (t.id, entry t)) := by
  refine mapM_eq_some ?_
  rw [List.map_map, List.map_map]
  refine List.map_congr_left fun t ht => ?_
  rw [Function.comp_apply, h t ht, Option.map_some, Function.comp_apply]

/-- Filtering the entries is filtering the tasks. -/
lemma map_fst_filter_map (tasks : List TaskDefinition) (entry : TaskDefinition → α)
    (p : α → Bool) :
    ((tasks.map fun t => (t.id, entry t)).filter fun x => p x.2).map (·.1) =
      (tasks.filter fun t => p (entry t)).map (·.id) := by
  rw [List.filter_map, List.map_map]
  rfl

section Distinct

variable (hids : (tasks.map (·.id)).Nodup)
include hids

/-- With distinct identifiers, a table of something about each task has an entry for each. -/
lemma get?_ofList_map (entry : TaskDefinition → α) {t : TaskDefinition} (ht : t ∈ tasks) :
    (Table.ofList (tasks.map fun t => (t.id, entry t))).get? t.id = some (entry t) := by
  have hk : ((tasks.map fun t => (t.id, entry t)).map Prod.fst).Nodup := by
    simpa [Function.comp_def] using hids
  exact Table.get?_ofList_of_mem hk (List.mem_map.2 ⟨t, ht, rfl⟩)

/-- Every declared task is found. -/
lemma lookUp?_taskTable :
    lookUp? (taskTable tasks) (tasks.map (·.id)) = some (tasks.map fun t => (t.id, t)) :=
  lookUp?_eq fun _ ht => get?_ofList_map hids (fun t => t) ht

/-- The search starts as without checks. -/
lemma Frontier.start?_eq : Frontier.start? tasks = some (Frontier.start tasks) := by
  have hcounted := lookUp?_eq fun _ ht => get?_ofList_map hids (fun t => t.dependencies.length) ht
  have hfree := map_fst_filter_map tasks (fun t => t.dependencies.length)
    fun n => decide (n = 0)
  have hempty : (tasks.filter fun t => decide (t.dependencies.length = 0)) =
      tasks.filter fun t => t.dependencies.isEmpty :=
    List.filter_congr fun t _ => by cases t.dependencies <;> rfl
  rw [hempty] at hfree
  simp only [Frontier.start?, lookUp?_taskTable hids, Option.bind_eq_bind, Option.bind_some,
    List.map_map, Function.comp_def, hcounted, hfree]
  rfl

/-- The search for an order ends as without checks. -/
lemma orderOf?_eq {edges : Table TaskId (List TaskId)}
    (hedges : ∀ id ∈ tasks.map (·.id), edges.get? id = some (dependentsIn tasks id)) :
    orderOf? edges tasks = some (orderOf tasks) := by
  have hcounted := lookUp?_eq (inv_taken hids).degree
  have hleft := map_fst_filter_map tasks
    (fun t => t.dependencies.countP fun d => decide (d ∉ taken tasks)) fun n => decide (0 < n)
  have hinvolved : (tasks.map (·.id)).filter (fun id => decide (id ∉ taken tasks)) =
      (tasks.filter fun t => decide (0 < t.dependencies.countP fun d =>
        decide (d ∉ taken tasks))).map (·.id) := by
    rw [List.filter_map]
    refine congrArg _ (List.filter_congr fun t ht => ?_)
    rw [Function.comp_apply, decide_eq_decide, ← degree_pos_iff hids ht,
      (inv_taken hids).degree t ht, Option.getD_some]
  simp only [orderOf?, Frontier.start?_eq hids, Option.bind_eq_bind, Option.bind_some,
    takeAll?_collected hids hedges, hcounted, hleft]
  rw [orderOf_eq hids, hinvolved]
  split <;> rfl

end Distinct

/-- **No step of building a graph fails**, whatever the tasks are: no look-up misses, no count falls
below zero, and what is wrong with the tasks is an answer.

**Proof sketch.** Look-ups come after the check for repeated identifiers. With distinct identifiers
every table that is built from the tasks has an entry for each of them; the walk over the
dependencies ends at the first that is not declared, and if all are, it notes all dependents, which
is what the search for an order looks up. -/
theorem build?_eq (tasks : List TaskDefinition) : build? tasks = some (build tasks) := by
  unfold build? build
  cases hrepeated : firstRepeated? [] tasks with
  | some id => rfl
  | none =>
    obtain ⟨hids, -⟩ := firstRepeated?_eq_none hrepeated
    simp only [lookUp?_taskTable hids, Option.bind_eq_bind, Option.bind_some, List.map_map,
      Function.comp_def, List.map_id']
    cases hunknown : firstUnknown? (tasks.map (·.id)) tasks with
    | some p => rw [collectEdges_eq_error hids hunknown]
    | none =>
      obtain ⟨edges, hwalk, hedges⟩ := get?_collectEdges hids (firstUnknown?_eq_none hunknown)
      rw [hwalk]
      simp only [orderOf?_eq hids hedges, Option.bind_some]
      cases orderOf tasks <;> rfl

/-- **No task of the order is missing.** -/
theorem WellFormed.orderedTasks?_eq (hg : g.WellFormed) :
    g.orderedTasks? = some g.orderedTasks := by
  refine mapM_eq_some (List.ext_getElem? fun i => ?_)
  rw [List.getElem?_map, List.getElem?_map, hg.getElem?_orderedTasks]
  cases hi : g.order[i]? with
  | none => rfl
  | some id =>
    obtain ⟨t, ht, rfl⟩ := hg.exists_task hi
    rw [Option.map_some, Option.bind_some, hg.task?_of_mem ht, Option.map_some]

end TaskGraph

end Taskflow
