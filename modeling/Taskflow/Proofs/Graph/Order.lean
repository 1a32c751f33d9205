import Mathlib.Data.List.Nodup
import Mathlib.Data.List.Perm.Subperm
import Taskflow.Graph
set_option autoImplicit false

/-!
# The order of a graph

A list of tasks that passes the three checks is a graph: its identifiers are distinct, its
dependencies are declared, and its order is a rearrangement of the identifiers in which every task
comes after its dependencies.

## Main definitions

* `TaskGraph.Frontier.Inv` — what holds while tasks are taken.
* `TaskGraph.WellFormed` — what a graph promises.
* `TaskGraph.DependsOn` — one task is a direct dependency of another.

## Main results

* `TaskGraph.Frontier.Inv.take` — taking a task keeps the invariant.
* `TaskGraph.wellFormed_of_build` — every graph that is built keeps its promises.
* `TaskGraph.build_of_independent` — distinct tasks without dependencies are a graph.

## Design

The invariant is stated for the tasks `taken` so far. Three of its clauses say what the degrees and
the queue mean: a degree counts the dependencies that are not taken, and a task has entered the
queue exactly if all its dependencies are taken. The order is then a consequence: a task is taken
from the queue, so its dependencies were taken before.
-/

namespace Taskflow

/-! ### Tables of distinct keys -/

namespace Table

variable {κ α : Type} [DecidableEq κ]

/-- Inserting pairs with other keys leaves a value alone. -/
lemma get?_foldl_insert_of_notMem (pairs : List (κ × α)) (t : Table κ α) {k : κ}
    (h : k ∉ pairs.map Prod.fst) :
    (pairs.foldl (fun t p => t.insert p.1 p.2) t).get? k = t.get? k := by
  induction pairs generalizing t with
  | nil => rfl
  | cons p rest ih =>
    simp only [List.map_cons, List.mem_cons, not_or] at h
    rw [List.foldl_cons, ih _ h.2, get?_insert, if_neg (Ne.symm h.1)]

/-- A table of pairs with distinct keys holds every pair. -/
lemma get?_ofList_of_mem {pairs : List (κ × α)} (hk : (pairs.map Prod.fst).Nodup) {k : κ} {a : α}
    (h : (k, a) ∈ pairs) : (ofList pairs).get? k = some a := by
  suffices ∀ t : Table κ α, (pairs.foldl (fun t p => t.insert p.1 p.2) t).get? k = some a from
    this {}
  induction pairs with
  | nil => cases h
  | cons p rest ih =>
    intro t
    obtain ⟨hp, hrest⟩ := List.nodup_cons.1 hk
    rcases List.mem_cons.1 h with rfl | h
    · rw [List.foldl_cons, get?_foldl_insert_of_notMem rest _ hp, get?_insert, if_pos rfl]
    · exact ih hrest h _

end Table

namespace TaskGraph

variable {tasks : List TaskDefinition}

/-! ### Dependents -/

/-- With distinct identifiers, the dependents of `id` are the tasks that name it. -/
lemma mem_dependentsIn {t : TaskDefinition} (hids : (tasks.map (·.id)).Nodup) (ht : t ∈ tasks)
    (id : TaskId) : t.id ∈ dependentsIn tasks id ↔ id ∈ t.dependencies := by
  simp only [dependentsIn, List.mem_map, List.mem_filter, decide_eq_true_eq]
  constructor
  · rintro ⟨u, ⟨hu, hid⟩, hut⟩
    rwa [← List.inj_on_of_nodup_map hids hu ht hut]
  · exact fun h => ⟨t, ⟨ht, h⟩, rfl⟩

/-- With distinct identifiers, no task is a dependent twice. -/
lemma nodup_dependentsIn (hids : (tasks.map (·.id)).Nodup) (id : TaskId) :
    (dependentsIn tasks id).Nodup :=
  hids.sublist ((List.filter_sublist).map _)

namespace Frontier

/-! ### Releasing dependents -/

/-- Releasing tasks lowers their degrees by one. -/
lemma get?_degrees_foldl_release (ids : List TaskId) (hids : ids.Nodup) (f : Frontier)
    (x : TaskId) :
    (ids.foldl release f).degrees.get? x =
      if x ∈ ids then (f.degrees.get? x).map (· - 1) else f.degrees.get? x := by
  induction ids generalizing f with
  | nil => simp
  | cons id rest ih =>
    obtain ⟨hid, hrest⟩ := List.nodup_cons.1 hids
    have hstep : (f.release id).degrees.get? x =
        if x = id then (f.degrees.get? x).map (· - 1) else f.degrees.get? x := by
      unfold release
      split
      next h =>
        split
        next hx => rw [hx, h]; rfl
        next => rfl
      next degree h =>
        rw [Table.get?_insert]
        by_cases hx : x = id
        · rw [if_pos hx.symm, if_pos hx, hx, h]; rfl
        · rw [if_neg (Ne.symm hx), if_neg hx]
    rw [List.foldl_cons, ih hrest, hstep]
    by_cases hx : x = id
    · subst hx; simp [hid]
    · simp [hx]

/-- Releasing tasks puts those behind the queue that had one dependency left. -/
lemma queue_foldl_release (ids : List TaskId) (hids : ids.Nodup) (f : Frontier) :
    (ids.foldl release f).queue =
      f.queue ++ ids.filter fun x =>
        (f.degrees.get? x).any fun degree => decide (degree - 1 = 0) := by
  induction ids generalizing f with
  | nil => simp
  | cons id rest ih =>
    obtain ⟨hid, hrest⟩ := List.nodup_cons.1 hids
    have hother : ∀ x ∈ rest, (f.release id).degrees.get? x = f.degrees.get? x := by
      intro x hx
      have hne : id ≠ x := fun h => hid (h ▸ hx)
      unfold release
      split
      · rfl
      · rw [Table.get?_insert, if_neg hne]
    rw [List.foldl_cons, ih hrest, List.filter_congr fun x hx => by rw [hother x hx]]
    unfold release
    split
    next h => simp [h]
    next degree h => by_cases hd : degree - 1 = 0 <;> simp [h, hd]

/-! ### The invariant of the order -/

/-- What holds once the tasks `taken` have been taken, in their order. -/
structure Inv (tasks : List TaskDefinition) (taken : List TaskId) (f : Frontier) : Prop where
  nodup : (taken ++ f.queue).Nodup
  declared : ∀ id ∈ taken ++ f.queue, id ∈ tasks.map (·.id)
  degree : ∀ t ∈ tasks, f.degrees.get? t.id =
    some (t.dependencies.countP fun d => decide (d ∉ taken))
  free : ∀ t ∈ tasks, t.id ∈ taken ++ f.queue ↔ ∀ d ∈ t.dependencies, d ∈ taken
  ordered : ∀ i, ∀ t ∈ tasks, taken[i]? = some t.id → ∀ d ∈ t.dependencies, d ∈ taken.take i

/-- Before any task is taken, the free tasks are those without dependencies. -/
lemma inv_start (hids : (tasks.map (·.id)).Nodup) : Inv tasks [] (start tasks) where
  nodup := hids.sublist ((List.filter_sublist).map _)
  declared id h := by
    obtain ⟨t, ht, rfl⟩ := List.mem_map.1 h
    exact List.mem_map.2 ⟨t, (List.mem_filter.1 ht).1, rfl⟩
  degree t ht := by
    have hk : ((tasks.map fun t => (t.id, t.dependencies.length)).map Prod.fst).Nodup := by
      simpa [Function.comp_def] using hids
    rw [start, Table.get?_ofList_of_mem hk (List.mem_map.2 ⟨t, ht, rfl⟩)]
    simp
  free t ht := by
    have hmem : t.id ∈ ([] : List TaskId) ++ (start tasks).queue ↔ t.dependencies.isEmpty := by
      simp only [List.nil_append, start, List.mem_map, List.mem_filter]
      constructor
      · rintro ⟨u, ⟨hu, he⟩, hut⟩
        rwa [← List.inj_on_of_nodup_map hids hu ht hut]
      · exact fun h => ⟨t, ⟨ht, h⟩, rfl⟩
    rw [hmem, List.isEmpty_iff, List.eq_nil_iff_forall_not_mem]
    simp
  ordered i t _ h := by simp at h

/-- Taking `id` lowers by one the number of open dependencies of those that name it. -/
lemma countP_open_append {deps taken : List TaskId} {id : TaskId} (hd : deps.Nodup)
    (hid : id ∉ taken) :
    deps.countP (fun d => decide (d ∉ taken ++ [id])) =
      if id ∈ deps then (deps.countP fun d => decide (d ∉ taken)) - 1
      else deps.countP fun d => decide (d ∉ taken) := by
  have herase : deps.filter (fun d => decide (d ∉ taken ++ [id])) =
      (deps.filter fun d => decide (d ∉ taken)).erase id := by
    rw [(hd.filter _).erase_eq_filter, List.filter_filter]
    refine List.filter_congr fun d _ => ?_
    simp only [List.mem_append, List.mem_singleton]
    by_cases h₁ : d ∈ taken <;> by_cases h₂ : d = id <;> simp [h₁, h₂]
  rw [List.countP_eq_length_filter, List.countP_eq_length_filter, herase, List.length_erase]
  simp [hid]

/-- If at most one dependency was open and `id` is one, then none is open after `id`. -/
lemma forall_mem_append_iff {deps taken : List TaskId} {id : TaskId} (hd : deps.Nodup)
    (hid : id ∉ taken) (hdep : id ∈ deps) :
    (∀ d ∈ deps, d ∈ taken ++ [id]) ↔
      (deps.countP fun d => decide (d ∉ taken)) - 1 = 0 := by
  have h := countP_open_append hd hid
  rw [if_pos hdep] at h
  rw [← h, List.countP_eq_zero]
  exact forall₂_congr fun d _ => by rw [decide_eq_true_eq, not_not]

/-- Which tasks come into the queue when one is taken: those that need it, and nothing else that has
not been taken. -/
lemma Inv.freed_iff {taken queue : List TaskId} {degrees : Table TaskId Nat} {id : TaskId}
    (hids : (tasks.map (·.id)).Nodup) (h : Inv tasks taken ⟨degrees, id :: queue⟩)
    (hid : id ∉ taken) {t : TaskDefinition} (ht : t ∈ tasks) :
    (t.id ∈ (dependentsIn tasks id).filter fun x =>
      (degrees.get? x).any fun degree => decide (degree - 1 = 0)) ↔
        id ∈ t.dependencies ∧ ∀ d ∈ t.dependencies, d ∈ taken ++ [id] := by
  rw [List.mem_filter, mem_dependentsIn hids ht, h.degree t ht]
  refine and_congr_right fun hdep => ?_
  rw [forall_mem_append_iff t.dependencies_nodup hid hdep]
  simp

/-- The dependencies of the task that is taken next have been taken before. -/
lemma Inv.ordered_concat {taken queue : List TaskId} {degrees : Table TaskId Nat} {id : TaskId}
    (h : Inv tasks taken ⟨degrees, id :: queue⟩) (i : Nat) (t : TaskDefinition) (ht : t ∈ tasks)
    (hi : (taken ++ [id])[i]? = some t.id) : ∀ d ∈ t.dependencies, d ∈ (taken ++ [id]).take i := by
  intro d hd
  rcases Nat.lt_or_ge i taken.length with hlt | hge
  · rw [List.getElem?_append_left hlt] at hi
    rw [List.take_append_of_le_length (Nat.le_of_lt hlt)]
    exact h.ordered i t ht hi d hd
  · rw [List.getElem?_append_right hge] at hi
    obtain ⟨hlen, hid'⟩ := List.getElem?_eq_some_iff.1 hi
    have hin : t.id ∈ taken ++ id :: queue := by
      rw [← hid']
      simp
    have hi0 : i = taken.length := by simp at hlen; omega
    rw [hi0, List.take_left]
    exact (h.free t ht).1 hin d hd

/-- **Taking the first task of the queue keeps the invariant.**

**Proof sketch.** The dependents of `id` are exactly the tasks whose number of open dependencies
drops, by one. Those that drop to zero enter the queue; they were not in it, because a task in the
queue has only taken dependencies and `id` was not taken. -/
lemma Inv.take {taken queue : List TaskId} {degrees : Table TaskId Nat} {id : TaskId}
    (hids : (tasks.map (·.id)).Nodup) (h : Inv tasks taken ⟨degrees, id :: queue⟩) :
    Inv tasks (taken ++ [id]) ((dependentsIn tasks id).foldl release ⟨degrees, queue⟩) := by
  have hnodup : (taken ++ id :: queue).Nodup := h.nodup
  have hid : id ∉ taken := fun hm =>
    (List.nodup_append.1 hnodup).2.2 id hm id List.mem_cons_self rfl
  have hdeps := nodup_dependentsIn hids id
  have hsplit : ∀ l : List TaskId, taken ++ [id] ++ (queue ++ l) = taken ++ id :: queue ++ l := by
    simp
  have hqueue := queue_foldl_release (dependentsIn tasks id) hdeps ⟨degrees, queue⟩
  refine ⟨?nodup, ?declared, ?degree, ?free, h.ordered_concat⟩
  case nodup =>
    rw [hqueue, hsplit]
    refine List.nodup_append.2 ⟨hnodup, hdeps.filter _, ?_⟩
    rintro x hx y hy rfl
    obtain ⟨t, ht, rfl⟩ := List.mem_map.1 (h.declared x hx)
    exact hid ((h.free t ht).1 hx id ((h.freed_iff hids hid ht).1 hy).1)
  case declared =>
    rw [hqueue, hsplit]
    intro x hx
    rcases List.mem_append.1 hx with hx | hx
    · exact h.declared x hx
    · obtain ⟨t, ht, rfl⟩ := List.mem_map.1 (List.mem_filter.1 hx).1
      exact List.mem_map.2 ⟨t, (List.mem_filter.1 ht).1, rfl⟩
  case degree =>
    intro t ht
    rw [get?_degrees_foldl_release _ hdeps, countP_open_append t.dependencies_nodup hid,
      h.degree t ht]
    simp only [mem_dependentsIn hids ht]
    split <;> rfl
  case free =>
    intro t ht
    rw [hqueue, hsplit, List.mem_append, h.free t ht, h.freed_iff hids hid ht]
    constructor
    · rintro (hall | ⟨-, hall⟩)
      · exact fun d hd => List.mem_append_left _ (hall d hd)
      · exact hall
    · intro hall
      by_cases hdep : id ∈ t.dependencies
      · exact .inr ⟨hdep, hall⟩
      · refine .inl fun d hd => ?_
        rcases List.mem_append.1 (hall d hd) with hm | hm
        · exact hm
        · exact absurd (List.mem_singleton.1 hm ▸ hd) hdep

/-- The invariant holds after any number of tasks, and the tasks that were taken before stay in
front. -/
lemma Inv.takeAll (hids : (tasks.map (·.id)).Nodup) (fuel : Nat) {taken : List TaskId}
    {f : Frontier} (h : Inv tasks taken f) :
    Inv tasks (taken ++ (f.takeAll tasks fuel).1) (f.takeAll tasks fuel).2 := by
  induction fuel generalizing taken f with
  | zero => simpa [Frontier.takeAll] using h
  | succ fuel ih =>
    obtain ⟨degrees, queue⟩ := f
    cases queue with
    | nil => simpa [Frontier.takeAll] using h
    | cons id queue =>
      have := ih (h.take hids)
      simpa [Frontier.takeAll] using this

end Frontier

/-! ### The three checks -/

/-- No identifier is reported as repeated exactly if none is. -/
lemma firstRepeated?_eq_none {seen : List TaskId} (h : firstRepeated? seen tasks = none) :
    (tasks.map (·.id)).Nodup ∧ ∀ t ∈ tasks, t.id ∉ seen := by
  induction tasks generalizing seen with
  | nil => simp
  | cons t rest ih =>
    unfold firstRepeated? at h
    split at h
    · cases h
    next hseen =>
      obtain ⟨hnodup, hrest⟩ := ih h
      refine ⟨?_, ?_⟩
      · rw [List.map_cons, List.nodup_cons]
        refine ⟨fun hm => ?_, hnodup⟩
        obtain ⟨u, hu, hid⟩ := List.mem_map.1 hm
        exact hrest u hu (hid ▸ List.mem_cons_self)
      · intro u hu
        rcases List.mem_cons.1 hu with rfl | hu
        · exact hseen
        · exact fun hm => hrest u hu (List.mem_cons_of_mem _ hm)

/-- If no dependency is reported as unknown, all are declared. -/
lemma firstUnknown?_eq_none {declared : List TaskId} (h : firstUnknown? declared tasks = none) :
    ∀ t ∈ tasks, ∀ d ∈ t.dependencies, d ∈ declared := by
  intro t ht d hd
  have := List.findSome?_eq_none_iff.1 h t ht
  simpa using List.find?_eq_none.1 (Option.map_eq_none_iff.1 this) d hd

/-! ### Graphs that are built -/

/-- Task `id` names task `d` among its dependencies. -/
def DependsOn (g : TaskGraph) (d id : TaskId) : Prop := d ∈ g.dependenciesOf id

instance (g : TaskGraph) (d id : TaskId) : Decidable (g.DependsOn d id) :=
  inferInstanceAs (Decidable (d ∈ g.dependenciesOf id))


/-- What a graph promises: distinct identifiers, declared dependencies, and an order that holds
every identifier once and in which dependencies come first. -/
structure WellFormed (g : TaskGraph) : Prop where
  ids_nodup : (g.tasks.map (·.id)).Nodup
  declared : ∀ t ∈ g.tasks, ∀ d ∈ t.dependencies, d ∈ g.tasks.map (·.id)
  order_perm : g.order.Perm (g.tasks.map (·.id))
  ordered : ∀ i, ∀ t ∈ g.tasks, g.order[i]? = some t.id → ∀ d ∈ t.dependencies,
    d ∈ g.order.take i

/-- **Every graph that is built keeps its promises.**

**Proof sketch.** The checks give distinct identifiers and declared dependencies. The order has no
repetitions and as many entries as there are tasks, so it is a rearrangement; the rest is the
invariant of `Frontier.Inv.takeAll`. -/
theorem wellFormed_of_build {g : TaskGraph} (h : build tasks = .ok g) : g.WellFormed := by
  unfold build at h
  split at h
  · cases h
  next hrep =>
    split at h
    · cases h
    next hunk =>
      obtain ⟨hids, -⟩ := firstRepeated?_eq_none hrep
      split at h
      next order hord =>
        cases h
        have hinv := (Frontier.inv_start hids).takeAll hids tasks.length
        unfold orderOf at hord
        split at hord
        next order' f htake =>
          split at hord
          next hlen =>
            cases hord
            rw [htake, List.nil_append] at hinv
            have hsub : order ⊆ tasks.map (·.id) := fun id hm =>
              hinv.declared id (List.mem_append_left _ hm)
            have hnodup : order.Nodup := (List.nodup_append.1 hinv.nodup).1
            refine ⟨hids, firstUnknown?_eq_none hunk, ?_, hinv.ordered⟩
            exact (List.subperm_of_subset hnodup hsub).perm_of_length_le (by simp [hlen])
          next => cases hord
      next => cases h

/-! ### The tasks of a graph in their order -/

section WellFormed

variable {g : TaskGraph} (hg : g.WellFormed)
include hg

/-- No identifier stands twice in the order. -/
lemma WellFormed.order_nodup : g.order.Nodup := hg.order_perm.nodup_iff.2 hg.ids_nodup

/-- A task is found by its identifier. -/
lemma WellFormed.task?_of_mem {t : TaskDefinition} (ht : t ∈ g.tasks) : g.task? t.id = some t := by
  cases h : g.task? t.id with
  | none => simpa using List.find?_eq_none.1 h t ht
  | some u =>
    have hid : u.id = t.id := by simpa using List.find?_some h
    rw [List.inj_on_of_nodup_map hg.ids_nodup (List.mem_of_find?_eq_some h) ht hid]

/-- The dependencies of a task are found by its identifier. -/
lemma WellFormed.dependenciesOf_of_mem {t : TaskDefinition} (ht : t ∈ g.tasks) :
    g.dependenciesOf t.id = t.dependencies := by
  rw [dependenciesOf, hg.task?_of_mem ht]

/-- Every place of the order holds a task. -/
lemma WellFormed.exists_task {i : Nat} {id : TaskId} (h : g.order[i]? = some id) :
    ∃ t ∈ g.tasks, t.id = id := by
  obtain ⟨t, ht, hid⟩ := List.mem_map.1 (hg.order_perm.mem_iff.1 (List.mem_of_getElem? h))
  exact ⟨t, ht, hid⟩

/-- The tasks in the order of the graph stand at the places of their identifiers. -/
lemma WellFormed.getElem?_orderedTasks (i : Nat) :
    g.orderedTasks[i]? = (g.order[i]?).bind g.task? := by
  have hsome : ∀ id ∈ g.order, ∃ t, g.task? id = some t := by
    intro id hid
    obtain ⟨t, ht, rfl⟩ := List.mem_map.1 (hg.order_perm.mem_iff.1 hid)
    exact ⟨t, hg.task?_of_mem ht⟩
  have hmap : g.orderedTasks.map some = g.order.map g.task? := by
    unfold orderedTasks
    generalize g.order = order at hsome
    induction order with
    | nil => rfl
    | cons id rest ih =>
      obtain ⟨t, ht⟩ := hsome id List.mem_cons_self
      rw [List.filterMap_cons_some ht, List.map_cons, List.map_cons, ht,
        ih fun x hx => hsome x (List.mem_cons_of_mem _ hx)]
  have hi := congrArg (·[i]?) hmap
  simp only [List.getElem?_map] at hi
  cases horder : g.order[i]? with
  | none =>
    rw [horder, Option.map_none, Option.map_eq_none_iff] at hi
    exact hi
  | some id =>
    obtain ⟨t, ht⟩ := hsome id (List.mem_of_getElem? horder)
    rw [horder, Option.map_some, ht] at hi
    obtain ⟨u, hu, hut⟩ := Option.map_eq_some_iff.1 hi
    rw [hu, Option.bind_some, ht, hut]

/-- The tasks in the order of the graph have the identifiers of the order. -/
lemma WellFormed.map_id_orderedTasks : g.orderedTasks.map (·.id) = g.order := by
  refine List.ext_getElem? fun i => ?_
  rw [List.getElem?_map, hg.getElem?_orderedTasks]
  cases hi : g.order[i]? with
  | none => rfl
  | some id =>
    obtain ⟨t, ht, rfl⟩ := hg.exists_task hi
    rw [Option.bind_some, hg.task?_of_mem ht]
    rfl

/-- Every task has its place in the order, and nothing else has. -/
lemma WellFormed.mem_orderedTasks {t : TaskDefinition} : t ∈ g.orderedTasks ↔ t ∈ g.tasks := by
  constructor
  · intro h
    obtain ⟨id, -, hid⟩ := List.mem_filterMap.1 h
    exact List.mem_of_find?_eq_some hid
  · intro ht
    exact List.mem_filterMap.2
      ⟨t.id, hg.order_perm.mem_iff.2 (List.mem_map.2 ⟨t, ht, rfl⟩), hg.task?_of_mem ht⟩

/-- The order rearranges the tasks. -/
lemma WellFormed.orderedTasks_perm : g.orderedTasks.Perm g.tasks := by
  have hordered : g.orderedTasks.Nodup := by
    refine List.Nodup.of_map (·.id) ?_
    rw [hg.map_id_orderedTasks]
    exact hg.order_nodup
  exact (List.perm_ext_iff_of_nodup hordered (List.Nodup.of_map (·.id) hg.ids_nodup)).2
    fun _ => hg.mem_orderedTasks

/-- A dependency of a task has an earlier place. -/
lemma WellFormed.exists_earlier {i : Nat} {t : TaskDefinition} (hi : g.order[i]? = some t.id)
    (ht : t ∈ g.tasks) {d : TaskId} (hd : d ∈ t.dependencies) :
    ∃ k < i, g.order[k]? = some d := by
  obtain ⟨k, hk⟩ := List.mem_iff_getElem?.1 (hg.ordered i t ht hi d hd)
  rw [List.getElem?_take] at hk
  split at hk
  next hlt => exact ⟨k, hlt, hk⟩
  next => cases hk

/-- The dependencies of a task stand before it. -/
lemma WellFormed.mem_before_of_dependency {before after : List TaskDefinition} {t : TaskDefinition}
    (hsplit : g.orderedTasks = before ++ t :: after) (ht : t ∈ g.tasks) {d : TaskId}
    (hd : d ∈ t.dependencies) : d ∈ before.map (·.id) := by
  have horder : g.order = before.map (·.id) ++ t.id :: after.map (·.id) := by
    rw [← hg.map_id_orderedTasks, hsplit, List.map_append, List.map_cons]
  have hi : g.order[before.length]? = some t.id := by simp [horder]
  have hmem := hg.ordered _ t ht hi d hd
  rwa [horder, List.take_left' (List.length_map _)] at hmem

end WellFormed

/-! ### Graphs without dependencies -/

/-- Distinct identifiers pass the first check. -/
lemma firstRepeated?_of_nodup {seen : List TaskId} (hids : (tasks.map (·.id)).Nodup)
    (hseen : ∀ t ∈ tasks, t.id ∉ seen) : firstRepeated? seen tasks = none := by
  induction tasks generalizing seen with
  | nil => rfl
  | cons t rest ih =>
    obtain ⟨hid, hrest⟩ := List.nodup_cons.1 hids
    rw [firstRepeated?, if_neg (hseen t List.mem_cons_self)]
    refine ih hrest fun u hu hmem => ?_
    rcases List.mem_cons.1 hmem with he | hmem
    · exact hid (List.mem_map.2 ⟨u, hu, he⟩)
    · exact hseen u (List.mem_cons_of_mem _ hu) hmem

/-- Where nobody has dependencies, the free tasks are taken as they stand in the queue. -/
lemma Frontier.takeAll_of_independent (hdeps : ∀ t ∈ tasks, t.dependencies = [])
    (queue : List TaskId) (degrees : Table TaskId Nat) :
    Frontier.takeAll tasks queue.length ⟨degrees, queue⟩ = (queue, ⟨degrees, []⟩) := by
  induction queue with
  | nil => rfl
  | cons id queue ih =>
    have hnone : dependentsIn tasks id = [] := by
      rw [dependentsIn, List.filter_eq_nil_iff.2, List.map_nil]
      intro t ht
      rw [hdeps t ht]
      simp
    rw [List.length_cons, Frontier.takeAll]
    simp only [hnone, List.foldl_nil, ih]

/-- **Tasks with distinct identifiers and without dependencies are a graph**, in the order of their
declaration. -/
theorem build_of_independent (hids : (tasks.map (·.id)).Nodup)
    (hdeps : ∀ t ∈ tasks, t.dependencies = []) :
    build tasks = .ok ⟨tasks, tasks.map (·.id)⟩ := by
  have hrepeated : firstRepeated? [] tasks = none :=
    firstRepeated?_of_nodup hids fun _ _ h => by cases h
  have hunknown : firstUnknown? (tasks.map (·.id)) tasks = none := by
    refine List.findSome?_eq_none_iff.2 fun t ht => ?_
    rw [hdeps t ht]
    rfl
  have hfree : (tasks.filter fun t => t.dependencies.isEmpty) = tasks :=
    List.filter_eq_self.2 fun t ht => by rw [hdeps t ht]; rfl
  have horder : orderOf tasks = .ok (tasks.map (·.id)) := by
    have htake := Frontier.takeAll_of_independent hdeps (tasks.map (·.id))
      (.ofList (tasks.map fun t => (t.id, t.dependencies.length)))
    rw [List.length_map] at htake
    rw [orderOf, Frontier.start, hfree, htake]
    simp
  rw [build, hrepeated, hunknown, horder]

end TaskGraph

end Taskflow
