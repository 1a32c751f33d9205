import Taskflow.Proofs.Graph.Cycles
set_option autoImplicit false

/-!
# The edges of a graph, one by one

The dependents of a task are those that name it, in the order of their declaration. They can be
collected in a table: the dependencies of all tasks are walked through, and each of them notes who
names it. A search for the order that reads this table, and for which a look-up that misses or a
count that would fall below zero is a failure, never fails and finds the same order.

## Main definitions

* `TaskGraph.addEdge`, `TaskGraph.collectEdges` — the table of dependents, edge by edge.
* `TaskGraph.Covers` — which tasks a table knows.
* `TaskGraph.Frontier.release?`, `TaskGraph.Frontier.takeAll?` — the search with checked steps.

## Main results

* `TaskGraph.collectEdges_eq_error` — the walk fails at the first dependency that is unknown.
* `TaskGraph.get?_collectEdges` — otherwise it notes exactly the dependents of each task.
* `TaskGraph.takeAll?_collected` — no step of the checked search fails.

## Design

A count is checked when it is lowered. The invariant `Frontier.Inv` says that it is the number of
dependencies that are not taken; the task that is being taken is one of them, so it is positive.
That a task counts its dependency once, and is told of it once, is due to the tasks naming no
dependency twice.
-/

namespace Taskflow

namespace TaskGraph

variable {tasks : List TaskDefinition} {declared : List TaskId}
  {edges : Table TaskId (List TaskId)} {id : TaskId}

/-- The task `id` is noted with its dependency `d`. -/
def addEdge (id : TaskId) (edges : Table TaskId (List TaskId)) (d : TaskId) :
    Except (TaskId × TaskId) (Table TaskId (List TaskId)) :=
  match edges.get? d with
  | some dependents => .ok (edges.insert d (dependents ++ [id]))
  | none => .error (d, id)

/-- The dependencies of a task are walked through in their order. -/
def addEdges (edges : Table TaskId (List TaskId)) (t : TaskDefinition) :
    Except (TaskId × TaskId) (Table TaskId (List TaskId)) :=
  t.dependencies.foldlM (addEdge t.id) edges

/-- The dependencies of all tasks are walked through, in the order of declaration. A dependency
that is not declared ends the walk; it is returned with the task that names it. -/
def collectEdges (tasks : List TaskDefinition) :
    Except (TaskId × TaskId) (Table TaskId (List TaskId)) :=
  tasks.foldlM addEdges (.ofList (tasks.map fun t => (t.id, [])))

namespace Frontier

/-- As `release`, but a count that is zero cannot be lowered. -/
def release? (f : Frontier) (id : TaskId) : Option Frontier :=
  match f.degrees.get? id with
  | none => some f
  | some 0 => none
  | some (degree + 1) =>
    some ⟨f.degrees.insert id degree, if degree = 0 then f.queue ++ [id] else f.queue⟩

/-- As `takeAll`, but the dependents are looked up in a table, and every step may fail. -/
def takeAll? (edges : Table TaskId (List TaskId)) :
    Nat → Frontier → Option (List TaskId × Frontier)
  | 0, f => some ([], f)
  | fuel + 1, f =>
    match f.queue with
    | [] => some ([], f)
    | id :: queue => do
      let dependents ← edges.get? id
      let f ← dependents.foldlM release? { f with queue }
      let (order, f) ← takeAll? edges fuel f
      some (id :: order, f)

end Frontier

/-! ### Collecting the edges -/

/-- The table has an entry for each of the declared tasks and for nothing else. -/
def Covers (declared : List TaskId) (edges : Table TaskId (List TaskId)) : Prop :=
  ∀ x, (edges.get? x).isSome ↔ x ∈ declared

/-- Changing entries leaves none out. -/
lemma Covers.of_get? {edges' : Table TaskId (List TaskId)} {p : TaskId → Prop} [DecidablePred p]
    {change : List TaskId → List TaskId} (h : Covers declared edges)
    (hget : ∀ x, edges'.get? x = if p x then (edges.get? x).map change else edges.get? x) :
    Covers declared edges' := by
  intro x
  rw [hget, ← h x]
  split <;> simp

/-- A dependency that is declared is noted. -/
lemma addEdge_of_mem (id : TaskId) (hkeys : Covers declared edges) {d : TaskId}
    (hd : d ∈ declared) :
    ∃ edges', addEdge id edges d = .ok edges' ∧
      ∀ x, edges'.get? x = if x = d then (edges.get? x).map (· ++ [id]) else edges.get? x := by
  obtain ⟨dependents, hget⟩ := Option.isSome_iff_exists.1 ((hkeys d).2 hd)
  refine ⟨edges.insert d (dependents ++ [id]), by rw [addEdge, hget], fun x => ?_⟩
  rw [Table.get?_insert]
  by_cases hx : x = d
  · rw [if_pos hx.symm, if_pos hx, hx, hget, Option.map_some]
  · rw [if_neg (Ne.symm hx), if_neg hx]

/-- The first dependency that is not declared ends the walk. -/
lemma foldlM_addEdge_eq_error (hkeys : Covers declared edges) {d : TaskId}
    {dependencies : List TaskId}
    (h : dependencies.find? (fun dep => decide (dep ∉ declared)) = some d) :
    dependencies.foldlM (addEdge id) edges = .error (d, id) := by
  induction dependencies generalizing edges with
  | nil => cases h
  | cons e rest ih =>
    rw [List.foldlM_cons]
    by_cases he : e ∈ declared
    · rw [List.find?_cons_of_neg (by simpa using he)] at h
      obtain ⟨edges', hadd, hget⟩ := addEdge_of_mem id hkeys he
      rw [hadd]
      exact ih (hkeys.of_get? hget) h
    · rw [List.find?_cons_of_pos (by simpa using he)] at h
      obtain rfl := Option.some_inj.1 h
      have hnone : edges.get? e = none := by
        rw [← Option.not_isSome_iff_eq_none, hkeys]
        exact he
      rw [addEdge, hnone]
      rfl

/-- Dependencies that are declared, and distinct, are noted once each. -/
lemma foldlM_addEdge_eq_ok (id : TaskId) (hkeys : Covers declared edges)
    {dependencies : List TaskId} (hnodup : dependencies.Nodup)
    (h : ∀ d ∈ dependencies, d ∈ declared) :
    ∃ edges', dependencies.foldlM (addEdge id) edges = .ok edges' ∧ ∀ x, edges'.get? x =
      if x ∈ dependencies then (edges.get? x).map (· ++ [id]) else edges.get? x := by
  induction dependencies generalizing edges with
  | nil => exact ⟨edges, rfl, by simp⟩
  | cons e rest ih =>
    obtain ⟨hnot, hrest⟩ := List.nodup_cons.1 hnodup
    obtain ⟨edges₁, hadd, hget₁⟩ := addEdge_of_mem id hkeys (h e List.mem_cons_self)
    obtain ⟨edges₂, hwalk, hget₂⟩ :=
      ih (hkeys.of_get? hget₁) hrest fun d hd => h d (List.mem_cons_of_mem _ hd)
    refine ⟨edges₂, by rw [List.foldlM_cons, hadd]; exact hwalk, fun x => ?_⟩
    rw [hget₂, hget₁]
    by_cases hx : x = e
    · simp [hx, hnot]
    · simp [hx]

/-- The walk fails at the first dependency that is unknown. -/
lemma foldlM_addEdges_eq_error (hkeys : Covers declared edges)
    {p : TaskId × TaskId} (h : firstUnknown? declared tasks = some p) :
    tasks.foldlM addEdges edges = .error p := by
  induction tasks generalizing edges with
  | nil => cases h
  | cons t rest ih =>
    rw [List.foldlM_cons]
    rw [firstUnknown?, List.findSome?_cons] at h
    cases hfind : t.dependencies.find? fun dep => decide (dep ∉ declared) with
    | some d =>
      rw [hfind] at h
      cases h
      rw [addEdges, foldlM_addEdge_eq_error hkeys hfind]
      rfl
    | none =>
      rw [hfind] at h
      have hknown : ∀ d ∈ t.dependencies, d ∈ declared := by
        simpa using List.find?_eq_none.1 hfind
      obtain ⟨edges', hwalk, hget⟩ :=
        foldlM_addEdge_eq_ok t.id hkeys t.dependencies_nodup hknown
      rw [addEdges, hwalk]
      exact ih (hkeys.of_get? hget) h

/-- Otherwise it appends the dependents of each task. -/
lemma foldlM_addEdges_eq_ok (hkeys : Covers declared edges)
    (h : ∀ t ∈ tasks, ∀ d ∈ t.dependencies, d ∈ declared) :
    ∃ edges', tasks.foldlM addEdges edges = .ok edges' ∧
      ∀ x, edges'.get? x = (edges.get? x).map (· ++ dependentsIn tasks x) := by
  induction tasks generalizing edges with
  | nil => exact ⟨edges, rfl, by simp [dependentsIn]⟩
  | cons t rest ih =>
    obtain ⟨edges₁, hadd, hget₁⟩ := foldlM_addEdge_eq_ok t.id hkeys t.dependencies_nodup
      (h t List.mem_cons_self)
    obtain ⟨edges₂, hwalk, hget₂⟩ :=
      ih (hkeys.of_get? hget₁) fun u hu => h u (List.mem_cons_of_mem _ hu)
    refine ⟨edges₂, by rw [List.foldlM_cons, addEdges, hadd]; exact hwalk, fun x => ?_⟩
    rw [hget₂, hget₁]
    by_cases hx : x ∈ t.dependencies <;> cases edges.get? x <;> simp [hx, dependentsIn]

section Distinct

variable (hids : (tasks.map (·.id)).Nodup)
include hids

/-- Before the walk nothing is noted with the declared tasks. -/
lemma get?_noEdges (x : TaskId) :
    (Table.ofList (tasks.map fun t => (t.id, ([] : List TaskId)))).get? x =
      if x ∈ tasks.map (·.id) then some [] else none := by
  have hfst : (tasks.map fun t => (t.id, ([] : List TaskId))).map Prod.fst = tasks.map (·.id) := by
    simp [Function.comp_def]
  split
  next hx =>
    obtain ⟨t, ht, rfl⟩ := List.mem_map.1 hx
    exact Table.get?_ofList_of_mem (hfst.symm ▸ hids) (List.mem_map.2 ⟨t, ht, rfl⟩)
  next hx => exact Table.get?_foldl_insert_of_notMem _ {} (hfst.symm ▸ hx)

/-- A table with an empty list for each identifier covers all of them. -/
lemma covers_noEdges : Covers (tasks.map (·.id)) (.ofList (tasks.map fun t => (t.id, []))) := by
  intro x
  rw [get?_noEdges hids]
  split <;> simp [*]

/-- **The walk fails at the first dependency that is unknown.** -/
theorem collectEdges_eq_error {p : TaskId × TaskId}
    (h : firstUnknown? (tasks.map (·.id)) tasks = some p) : collectEdges tasks = .error p :=
  foldlM_addEdges_eq_error (covers_noEdges hids) h

/-- **If all dependencies are declared, the walk notes the dependents of each task.** -/
theorem get?_collectEdges
    (hknown : ∀ t ∈ tasks, ∀ d ∈ t.dependencies, d ∈ tasks.map (·.id)) :
    ∃ edges, collectEdges tasks = .ok edges ∧
      ∀ id ∈ tasks.map (·.id), edges.get? id = some (dependentsIn tasks id) := by
  obtain ⟨edges, hwalk, hget⟩ := foldlM_addEdges_eq_ok (covers_noEdges hids) hknown
  refine ⟨edges, hwalk, fun id hid => ?_⟩
  rw [hget, get?_noEdges hids, if_pos hid, Option.map_some, List.nil_append]

end Distinct

/-! ### The checked search -/

namespace Frontier

/-- A count that is not zero is lowered as without a check. -/
lemma release?_eq (f : Frontier) (h : f.degrees.get? id ≠ some 0) :
    f.release? id = some (f.release id) := by
  unfold release? release
  cases hget : f.degrees.get? id with
  | none => rfl
  | some degree =>
    cases degree with
    | zero => exact absurd hget h
    | succ degree => rfl

/-- Counts of distinct tasks that are not zero are lowered as without checks. -/
lemma foldlM_release?_eq (ids : List TaskId) (hids : ids.Nodup) (f : Frontier)
    (h : ∀ x ∈ ids, f.degrees.get? x ≠ some 0) :
    ids.foldlM release? f = some (ids.foldl release f) := by
  induction ids generalizing f with
  | nil => rfl
  | cons id rest ih =>
    obtain ⟨hid, hrest⟩ := List.nodup_cons.1 hids
    rw [List.foldlM_cons, release?_eq f (h id List.mem_cons_self), List.foldl_cons]
    refine ih hrest _ fun x hx => ?_
    have hsame := get?_degrees_foldl_release [id] (List.nodup_singleton id) f x
    have hne : x ∉ [id] := fun hx' => hid (List.mem_singleton.1 hx' ▸ hx)
    rw [List.foldl_cons, List.foldl_nil, if_neg hne] at hsame
    rw [hsame]
    exact h x (List.mem_cons_of_mem _ hx)

/-- **No dependent of the task that is taken has a count of zero.** -/
lemma Inv.degree_ne_zero {taken queue : List TaskId} {degrees : Table TaskId Nat}
    (hids : (tasks.map (·.id)).Nodup) (h : Inv tasks taken ⟨degrees, id :: queue⟩) {x : TaskId}
    (hx : x ∈ dependentsIn tasks id) : degrees.get? x ≠ some 0 := by
  obtain ⟨t, ht, rfl⟩ := List.mem_map.1 hx
  have ht := (List.mem_filter.1 ht).1
  have hdep := (mem_dependentsIn hids ht id).1 hx
  have hopen : id ∉ taken := fun hm =>
    (List.nodup_append.1 h.nodup).2.2 id hm id List.mem_cons_self rfl
  have hdegree := h.degree t ht
  rw [hdegree, ne_eq, Option.some_inj, ← ne_eq, ← Nat.pos_iff_ne_zero, List.countP_pos_iff]
  exact ⟨id, hdep, by simpa using hopen⟩

/-- The checked search goes the same way as the other one, as long as the table is right. -/
lemma Inv.takeAll? {taken : List TaskId} {f : Frontier} (hids : (tasks.map (·.id)).Nodup)
    (hedges : ∀ id ∈ tasks.map (·.id), edges.get? id = some (dependentsIn tasks id)) (fuel : Nat)
    (h : Inv tasks taken f) : f.takeAll? edges fuel = some (f.takeAll tasks fuel) := by
  induction fuel generalizing taken f with
  | zero => rfl
  | succ fuel ih =>
    obtain ⟨degrees, queue⟩ := f
    cases queue with
    | nil => rfl
    | cons id queue =>
      have hid : id ∈ tasks.map (·.id) := h.declared id (by simp)
      have hlowered := foldlM_release?_eq (dependentsIn tasks id) (nodup_dependentsIn hids id)
        ⟨degrees, queue⟩ fun x hx => h.degree_ne_zero hids hx
      simp only [Frontier.takeAll?, Frontier.takeAll, hedges id hid, hlowered, ih (h.take hids),
        Option.bind_eq_bind, Option.bind_some]

end Frontier

/-- **No step of the checked search fails**: no look-up misses and no count falls below zero. -/
theorem takeAll?_collected (hids : (tasks.map (·.id)).Nodup)
    (hedges : ∀ id ∈ tasks.map (·.id), edges.get? id = some (dependentsIn tasks id)) :
    (Frontier.start tasks).takeAll? edges tasks.length = some (taken tasks, left tasks) :=
  (Frontier.inv_start hids).takeAll? hids hedges tasks.length

end TaskGraph

end Taskflow
