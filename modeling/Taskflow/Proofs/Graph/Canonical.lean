import Mathlib.Data.Finset.Lattice.Fold
import Mathlib.Order.Lattice.Nat
import Taskflow.Proofs.Graph.Validation
set_option autoImplicit false

/-!
# The order of a graph is canonical

The order of a graph goes level by level: first by the depth of a task, which is the length of the
longest chain of dependencies below it, then by the place of the dependency that comes latest, then
by the place in the declaration. No other rearrangement of the tasks is sorted in this way, so the
order depends on nothing else.

## Main definitions

* `TaskGraph.Chain` — a chain of dependencies below a task.
* `TaskGraph.depth` — the length of the longest one.
* `TaskGraph.latest` — the place of the dependency that comes latest.
* `TaskGraph.Precedes`, `TaskGraph.IsCanonical` — what it means to be sorted.
* `TaskGraph.Reordered` — the dependencies of each task are named in another order.

## Main results

* `TaskGraph.WellFormed.isGreatest_depth` — the depth is the length of the longest chain.
* `TaskGraph.Frontier.Sorted.take`, `TaskGraph.Frontier.Sorted.takeAll` — the queue stays sorted.
* `TaskGraph.WellFormed.eq_of_isCanonical` — there is one canonical order at most.
* `TaskGraph.Reordered.build_eq` — the order does not depend on how dependencies are listed.
* `TaskGraph.order_is_canonical` — the order of a graph is canonical, and what follows.

## Design

The queue is first in, first out, and a task enters it when its latest dependency is taken. So tasks
are taken in the order of their latest dependencies, and those with the same one in the order of
declaration: this is what one step of the search keeps. That depths do not fall along such an order
is a consequence, since the latest dependency of a task is a deepest one.
-/

namespace Taskflow

namespace TaskGraph

variable {g : TaskGraph} {id d a b : TaskId} {order : List TaskId} {n : Nat}

/-- A chain of `n` dependencies below a task. -/
inductive Chain (tasks : List TaskDefinition) : Nat → TaskId → Prop
  | here (id : TaskId) : Chain tasks 0 id
  | link {n : Nat} {id d : TaskId} (h : Names tasks id d) (hc : Chain tasks n d) :
    Chain tasks (n + 1) id

/-- The length of the longest chain of at most `n` dependencies below a task. -/
def depthWithin (g : TaskGraph) : Nat → TaskId → Nat
  | 0, _ => 0
  | n + 1, id => (g.dependenciesOf id).toFinset.sup fun d => g.depthWithin n d + 1

/-- The length of the longest chain of dependencies below a task. -/
def depth (g : TaskGraph) (id : TaskId) : Nat := g.depthWithin g.size id

/-- The place in `order`, counted from one, of the dependency that comes latest; zero for a task
without dependencies. -/
def latest (g : TaskGraph) (order : List TaskId) (id : TaskId) : Nat :=
  (g.dependenciesOf id).toFinset.sup fun d => order.idxOf d + 1

/-- The place in the declaration. -/
def place (g : TaskGraph) (id : TaskId) : Nat := (g.tasks.map (·.id)).idxOf id

/-- The latest dependency of `a` comes before that of `b`, or they have the same and `a` is declared
first. -/
def IsFreedBefore (g : TaskGraph) (order : List TaskId) (a b : TaskId) : Prop :=
  g.latest order a < g.latest order b ∨
    g.latest order a = g.latest order b ∧ g.place a < g.place b

/-- Sorted by depth, then by the latest dependency, then by declaration. -/
def Precedes (g : TaskGraph) (order : List TaskId) (a b : TaskId) : Prop :=
  g.depth a < g.depth b ∨ g.depth a = g.depth b ∧ g.IsFreedBefore order a b

/-- A rearrangement of the declared identifiers that is sorted. The places of the dependencies are
those in the rearrangement itself. -/
structure IsCanonical (g : TaskGraph) (order : List TaskId) : Prop where
  perm : order.Perm (g.tasks.map (·.id))
  sorted : order.Pairwise (g.Precedes order)

/-! ### Depth -/

section Depth

variable (hg : g.WellFormed)
include hg

/-- There is a chain of the length that is found. -/
lemma WellFormed.chain_depthWithin (n : Nat) (id : TaskId) :
    Chain g.tasks (g.depthWithin n id) id := by
  induction n generalizing id with
  | zero => exact .here id
  | succ n ih =>
    rw [depthWithin]
    rcases (g.dependenciesOf id).toFinset.eq_empty_or_nonempty with hnone | hsome
    · rw [hnone, Finset.sup_empty]
      exact .here id
    · obtain ⟨d, hd, hsup⟩ := Finset.exists_mem_eq_sup _ hsome fun d => g.depthWithin n d + 1
      rw [hsup]
      exact .link (hg.names_iff.2 (List.mem_toFinset.1 hd)) (ih d)

/-- A chain is not longer than what is found, if the search goes as far. -/
lemma WellFormed.le_depthWithin {k : Nat} (h : Chain g.tasks k id) (hk : k ≤ n) :
    k ≤ g.depthWithin n id := by
  induction h generalizing n with
  | here id => exact Nat.zero_le _
  | @link k id d hn _ ih =>
    obtain ⟨n, rfl⟩ : ∃ m, n = m + 1 := ⟨n - 1, by omega⟩
    have hmem : d ∈ (g.dependenciesOf id).toFinset := List.mem_toFinset.2 (hg.names_iff.1 hn)
    have hle := Finset.le_sup (f := fun d => g.depthWithin n d + 1) hmem
    have hd := ih (n := n) (by omega)
    rw [depthWithin]
    omega

/-- A chain is not longer than there are tasks before its first. -/
lemma WellFormed.chain_le_idxOf (h : Chain g.tasks n id) (hid : id ∈ g.order) :
    n ≤ g.order.idxOf id := by
  induction h with
  | here id => exact Nat.zero_le _
  | link hn _ ih =>
    obtain ⟨hd, hlt⟩ := hg.respects.earlier_of_names hn hid
    have hrest := ih hd
    omega

/-- **The depth is the length of the longest chain of dependencies.** -/
lemma WellFormed.isGreatest_depth (id : TaskId) :
    IsGreatest {n | Chain g.tasks n id} (g.depth id) := by
  refine ⟨hg.chain_depthWithin g.size id, fun n hn => hg.le_depthWithin hn ?_⟩
  cases hn with
  | here id => exact Nat.zero_le _
  | @link n _ d h hc =>
    have hid : id ∈ g.order := by
      obtain ⟨t, ht, rfl, -⟩ := h
      exact hg.order_perm.mem_iff.2 (List.mem_map.2 ⟨t, ht, rfl⟩)
    have hle := hg.chain_le_idxOf (.link h hc) hid
    have hlt := List.idxOf_lt_length_of_mem hid
    rw [hg.order_perm.length_eq, List.length_map] at hlt
    exact Nat.le_trans hle (Nat.le_of_lt hlt)

/-- A dependency is less deep. -/
lemma WellFormed.depth_lt (h : Names g.tasks id d) : g.depth d < g.depth id :=
  (hg.isGreatest_depth id).2 (.link h (hg.isGreatest_depth d).1)

/-- A task that is not at depth zero has a dependency just below it. -/
lemma WellFormed.exists_depth_eq (h : g.depth id ≠ 0) :
    ∃ d, Names g.tasks id d ∧ g.depth id = g.depth d + 1 := by
  have hchain := (hg.isGreatest_depth id).1
  generalize hn : g.depth id = n at h hchain
  cases hchain with
  | here => exact absurd rfl h
  | @link n _ d hnames hc =>
    have hle := (hg.isGreatest_depth d).2 hc
    have hlt := hg.depth_lt hnames
    exact ⟨d, hnames, by omega⟩

end Depth

/-! ### The latest dependency -/

/-- An identifier comes after its dependencies if its latest place allows for all of them. -/
lemma latest_le_iff : g.latest order id ≤ n ↔ ∀ d ∈ g.dependenciesOf id, order.idxOf d < n := by
  simp only [latest, Finset.sup_le_iff, List.mem_toFinset, Nat.succ_le_iff]

/-- A dependency stands before the latest place. -/
lemma idxOf_lt_latest (order : List TaskId) (hd : d ∈ g.dependenciesOf id) :
    order.idxOf d < g.latest order id :=
  latest_le_iff.1 (Nat.le_refl _) d hd

/-- The latest dependency is one of them. -/
lemma exists_latest_eq (h : g.latest order id ≠ 0) :
    ∃ d ∈ g.dependenciesOf id, g.latest order id = order.idxOf d + 1 := by
  have hsome : (g.dependenciesOf id).toFinset.Nonempty := by
    rw [Finset.nonempty_iff_ne_empty]
    intro hnone
    rw [latest, hnone] at h
    exact h rfl
  obtain ⟨d, hd, hsup⟩ := Finset.exists_mem_eq_sup _ hsome fun d => order.idxOf d + 1
  exact ⟨d, List.mem_toFinset.1 hd, hsup⟩

/-- The latest dependency stays the same if the places of all dependencies do. -/
lemma latest_congr {order' : List TaskId}
    (h : ∀ d ∈ g.dependenciesOf id, order.idxOf d = order'.idxOf d) :
    g.latest order id = g.latest order' id :=
  Finset.sup_congr rfl fun d hd => by rw [h d (List.mem_toFinset.1 hd)]

/-! ### The queue stays sorted -/

/-- The places of a list without repetitions rise. -/
lemma pairwise_idxOf_lt {l : List TaskId} (h : l.Nodup) :
    l.Pairwise fun a b => l.idxOf a < l.idxOf b := by
  rw [List.pairwise_iff_getElem]
  intro i j hi hj hij
  rwa [h.idxOf_getElem, h.idxOf_getElem]

/-- What comes first is a first part. -/
lemma filter_prefix {p : TaskId → Bool} {l : List TaskId}
    (h : l.Pairwise fun a b => p b = true → p a = true) : l.filter p <+: l := by
  induction l with
  | nil => exact List.prefix_refl _
  | cons a rest ih =>
    obtain ⟨ha, hrest⟩ := List.pairwise_cons.1 h
    by_cases hp : p a = true
    · rw [List.filter_cons_of_pos hp]
      exact (List.prefix_cons_inj a).2 (ih hrest)
    · have hnone : (a :: rest).filter p = [] := by
        rw [List.filter_eq_nil_iff, List.forall_mem_cons]
        exact ⟨hp, fun b hb hpb => hp (ha b hb hpb)⟩
      rw [hnone]
      exact List.nil_prefix

namespace Frontier

/-- The look-ups decide which tasks are taken, not the layout of the table. -/
lemma takeAll_congr {tasks : List TaskDefinition} (hids : (tasks.map (·.id)).Nodup)
    {f f' : Frontier} (hqueue : f.queue = f'.queue)
    (hdegrees : ∀ x, f.degrees.get? x = f'.degrees.get? x) (fuel : Nat) :
    (f.takeAll tasks fuel).1 = (f'.takeAll tasks fuel).1 := by
  induction fuel generalizing f f' with
  | zero => rfl
  | succ fuel ih =>
    obtain ⟨degrees, queue⟩ := f
    obtain ⟨degrees', queue'⟩ := f'
    obtain rfl : queue = queue' := hqueue
    have hdegrees : ∀ x, degrees.get? x = degrees'.get? x := hdegrees
    cases queue with
    | nil => rfl
    | cons id queue =>
      have hdependents := nodup_dependentsIn hids id
      simp only [Frontier.takeAll, List.cons.injEq, true_and]
      refine ih ?_ fun x => ?_
      · simp only [queue_foldl_release _ hdependents, hdegrees]
      · simp only [get?_degrees_foldl_release _ hdependents, hdegrees]

variable {taken queue : List TaskId} {degrees : Table TaskId Nat} {f : Frontier}

/-- Tasks stand in the order in which they became free, those that are taken and those that are
not yet. -/
def Sorted (g : TaskGraph) (taken queue : List TaskId) : Prop :=
  (taken ++ queue).Pairwise (g.IsFreedBefore taken)

variable (hg : g.WellFormed)
include hg

/-- At the start the queue is sorted. -/
lemma sorted_start : Sorted g [] (start g.tasks).queue := by
  have hplaces := (pairwise_idxOf_lt hg.ids_nodup).sublist
    ((List.filter_sublist (p := fun t => t.dependencies.isEmpty) (l := g.tasks)).map (·.id))
  refine hplaces.imp_of_mem fun {a b} ha hb hlt => .inr ⟨?_, hlt⟩
  have hnone : ∀ x ∈ (start g.tasks).queue, g.latest [] x = 0 := by
    intro x hx
    obtain ⟨t, ht, rfl⟩ := List.mem_map.1 hx
    obtain ⟨ht, hdeps⟩ := List.mem_filter.1 ht
    rw [latest, hg.dependenciesOf_of_mem ht, List.isEmpty_iff.1 hdeps]
    rfl
  rw [hnone a ha, hnone b hb]

/-- The dependencies of a task that is taken or free are taken. -/
lemma mem_taken_of_mem (h : Inv g.tasks taken f) {x : TaskId} (hx : x ∈ taken ++ f.queue)
    (hd : d ∈ g.dependenciesOf x) : d ∈ taken := by
  obtain ⟨t, ht, rfl⟩ := List.mem_map.1 (h.declared x hx)
  rw [hg.dependenciesOf_of_mem ht] at hd
  exact (h.free t ht).1 hx d hd

/-- **Taking the first task of the queue keeps the queue sorted.**

**Proof sketch.** What was free before has its dependencies among the tasks that were taken then, so
its latest dependency stays where it is. What becomes free has the task that is taken as its latest
dependency; such tasks are put behind the queue in the order of their declaration. -/
lemma Sorted.take (hinv : Inv g.tasks taken ⟨degrees, id :: queue⟩)
    (h : Sorted g taken (id :: queue)) : Sorted g (taken ++ [id])
      ((dependentsIn g.tasks id).foldl release ⟨degrees, queue⟩).queue := by
  have hids := hg.ids_nodup
  have hnext := hinv.take hids
  have hqueue := queue_foldl_release _ (nodup_dependentsIn hids id) ⟨degrees, queue⟩
  have hopen : id ∉ taken := fun hm =>
    (List.nodup_append.1 hinv.nodup).2.2 id hm id List.mem_cons_self rfl
  -- the tasks that were free already
  have hold : ∀ x ∈ taken ++ id :: queue, g.latest (taken ++ [id]) x = g.latest taken x ∧
      g.latest taken x ≤ taken.length := by
    intro x hx
    have hdeps : ∀ d ∈ g.dependenciesOf x, d ∈ taken := fun d hd => mem_taken_of_mem hg hinv hx hd
    exact ⟨latest_congr fun d hd => List.idxOf_append_of_mem (hdeps d hd),
      latest_le_iff.2 fun d hd => List.idxOf_lt_length_of_mem (hdeps d hd)⟩
  generalize hnew : ((dependentsIn g.tasks id).filter fun x =>
    (degrees.get? x).any fun degree => decide (degree - 1 = 0)) = new at hqueue
  -- the tasks that become free
  have hfreed : ∀ x ∈ new, g.latest (taken ++ [id]) x = taken.length + 1 := by
    intro x hx
    have hmem : x ∈ taken ++ [id] ++
        ((dependentsIn g.tasks id).foldl release ⟨degrees, queue⟩).queue := by
      rw [hqueue]
      simp [hx]
    refine Nat.le_antisymm (latest_le_iff.2 fun d hd => ?_) ?_
    · have hlt := List.idxOf_lt_length_of_mem (mem_taken_of_mem hg hnext hmem hd)
      simpa using hlt
    · rw [← hnew] at hx
      obtain ⟨t, ht, rfl⟩ := List.mem_map.1 (List.mem_filter.1 hx).1
      obtain ⟨ht, hdep⟩ := List.mem_filter.1 ht
      have hplace : (taken ++ [id]).idxOf id = taken.length := by
        rw [List.idxOf_append_of_notMem hopen]
        simp
      rw [← hplace]
      refine idxOf_lt_latest _ ?_
      rw [hg.dependenciesOf_of_mem ht]
      simpa using hdep
  have hplaces : new.Pairwise fun a b => g.place a < g.place b := by
    rw [← hnew]
    exact (pairwise_idxOf_lt hids).sublist
      ((List.filter_sublist).trans ((List.filter_sublist).map _))
  rw [Sorted, hqueue, show taken ++ [id] ++ (queue ++ new) = taken ++ id :: queue ++ new by simp]
  refine List.pairwise_append.2 ⟨?_, ?_, fun x hx y hy => .inl ?_⟩
  · refine h.imp_of_mem fun {a b} ha hb hab => ?_
    rwa [IsFreedBefore, (hold a ha).1, (hold b hb).1]
  · refine hplaces.imp_of_mem fun {a b} ha hb hlt => .inr ⟨?_, hlt⟩
    rw [hfreed a ha, hfreed b hb]
  · rw [(hold x hx).1, hfreed y hy]
    exact Nat.lt_succ_of_le (hold x hx).2

/-- The queue stays sorted however many tasks are taken. -/
lemma Sorted.takeAll (fuel : Nat) (hinv : Inv g.tasks taken f) (h : Sorted g taken f.queue) :
    Sorted g (taken ++ (f.takeAll g.tasks fuel).1) (f.takeAll g.tasks fuel).2.queue := by
  induction fuel generalizing taken f with
  | zero => simpa [Frontier.takeAll] using h
  | succ fuel ih =>
    obtain ⟨degrees, queue⟩ := f
    cases queue with
    | nil => simpa [Frontier.takeAll] using h
    | cons id queue =>
      have hrest := ih (hinv.take hg.ids_nodup) (Sorted.take hg hinv h)
      simpa [Frontier.takeAll] using hrest

end Frontier

/-! ### The order -/

/-- In a canonical order what is less deep than some task stands before it. -/
lemma IsCanonical.mem_of_depth_lt {before after : List TaskId}
    (h : g.IsCanonical (before ++ a :: after)) (hd : d ∈ g.tasks.map (·.id))
    (hlt : g.depth d < g.depth a) : d ∈ before := by
  rcases List.mem_append.1 (h.perm.mem_iff.2 hd) with hmem | hmem
  · exact hmem
  · rcases List.mem_cons.1 hmem with rfl | hmem
    · exact absurd hlt (Nat.lt_irrefl _)
    · have hsorted := (List.pairwise_cons.1 (List.pairwise_append.1 h.sorted).2.1).1 d hmem
      rcases hsorted with hgt | ⟨heq, -⟩ <;> omega

section Order

variable (hg : g.WellFormed)
include hg

/-- If tasks stand in the order in which they became free, depths do not fall.

**Proof sketch.** Induction on the later place. A deepest dependency of the earlier task has its
place before or at the latest dependency of the later one, which is less deep than that one. -/
lemma WellFormed.depth_le (hsorted : g.order.Pairwise (g.IsFreedBefore g.order))
    (ha : a ∈ g.order) (hb : b ∈ g.order) (hle : g.order.idxOf a ≤ g.order.idxOf b) :
    g.depth a ≤ g.depth b := by
  generalize hn : g.order.idxOf b = n at hle
  induction n using Nat.strong_induction_on generalizing a b with
  | _ n ih =>
    by_cases hroot : g.depth a = 0
    · omega
    have hlatest : g.latest g.order a ≤ g.latest g.order b := by
      rcases Nat.lt_or_ge (g.order.idxOf a) (g.order.idxOf b) with hlt | hge
      · have hab := List.pairwise_iff_getElem.1 hsorted _ _ (List.idxOf_lt_length_of_mem ha)
          (List.idxOf_lt_length_of_mem hb) hlt
        rw [List.getElem_idxOf, List.getElem_idxOf] at hab
        rcases hab with hab | ⟨hab, -⟩ <;> omega
      · obtain rfl : a = b := (List.idxOf_inj ha).1 (by omega)
        exact Nat.le_refl _
    obtain ⟨d, hd, hdepth⟩ := hg.exists_depth_eq hroot
    have hd' := idxOf_lt_latest g.order (hg.names_iff.1 hd)
    have hsome : g.latest g.order b ≠ 0 := by omega
    obtain ⟨e, he, hplace⟩ := exists_latest_eq hsome
    have he := hg.names_iff.2 he
    have hearlier := hg.respects.earlier_of_names he hb
    have hde := ih (g.order.idxOf e) (by omega) (hg.respects.earlier_of_names hd ha).1 hearlier.1
      rfl (by omega)
    have hlt := hg.depth_lt he
    omega

/-- What became free in order is sorted. -/
lemma WellFormed.isCanonical (hsorted : g.order.Pairwise (g.IsFreedBefore g.order)) :
    g.IsCanonical g.order := by
  refine ⟨hg.order_perm, List.pairwise_iff_getElem.2 fun i j hi hj hij => ?_⟩
  have hab := List.pairwise_iff_getElem.1 hsorted i j hi hj hij
  have hdepth := hg.depth_le hsorted (List.getElem_mem hi) (List.getElem_mem hj)
    (by rw [hg.order_nodup.idxOf_getElem, hg.order_nodup.idxOf_getElem]; omega)
  rcases Nat.lt_or_eq_of_le hdepth with hlt | heq
  · exact .inl hlt
  · exact .inr ⟨heq, hab⟩

/-- **There is one canonical order at most.**

**Proof sketch.** Where two canonical orders part, each holds the task of the other further behind.
So the two tasks are equally deep, and all that they depend on stands in the common beginning. Then
their latest dependencies have the same places in both orders, and each would precede the other. -/
lemma WellFormed.eq_of_isCanonical {before l l' : List TaskId}
    (h : g.IsCanonical (before ++ l)) (h' : g.IsCanonical (before ++ l')) : l = l' := by
  induction l generalizing before l' with
  | nil =>
    have hlen := (h.perm.trans h'.perm.symm).length_eq
    simp only [List.length_append, List.length_nil] at hlen
    exact (List.length_eq_zero_iff.1 (by omega)).symm
  | cons a rest ih =>
    cases l' with
    | nil =>
      have hlen := (h.perm.trans h'.perm.symm).length_eq
      simp at hlen
    | cons b rest' =>
      suffices hab : a = b by
        subst hab
        have hnext : g.IsCanonical (before ++ [a] ++ rest) := by simpa using h
        have hnext' : g.IsCanonical (before ++ [a] ++ rest') := by simpa using h'
        rw [ih hnext hnext']
      by_contra hab
      have hmem : ∀ {x y : TaskId} {xs ys : List TaskId}, g.IsCanonical (before ++ x :: xs) →
          g.IsCanonical (before ++ y :: ys) → ¬ x = y → y ∈ xs := by
        intro x y xs ys hx hy hxy
        have hy' : y ∈ before ++ x :: xs := (hx.perm.trans hy.perm.symm).mem_iff.2 (by simp)
        have hnot : y ∉ before := fun hm => (List.nodup_append.1
          (hy.perm.nodup_iff.2 hg.ids_nodup)).2.2 y hm y List.mem_cons_self rfl
        simpa [hnot, Ne.symm hxy] using hy'
      have hfirst := (List.pairwise_cons.1 (List.pairwise_append.1 h.sorted).2.1).1 b
        (hmem h h' hab)
      have hfirst' := (List.pairwise_cons.1 (List.pairwise_append.1 h'.sorted).2.1).1 a
        (hmem h' h (Ne.symm hab))
      have hdepth : g.depth a = g.depth b := by
        rcases hfirst with h₁ | ⟨h₁, -⟩ <;> rcases hfirst' with h₂ | ⟨h₂, -⟩ <;> omega
      have hlatest : ∀ x, g.depth x = g.depth a →
          g.latest (before ++ a :: rest) x = g.latest (before ++ b :: rest') x := by
        intro x hx
        refine latest_congr fun d hd => ?_
        obtain ⟨t, ht, rfl, hdep⟩ := hg.names_iff.2 hd
        have hlt := hg.depth_lt (hg.names_iff.2 hd)
        have hbefore := h.mem_of_depth_lt (hg.declared t ht d hdep) (hx ▸ hlt)
        rw [List.idxOf_append_of_mem hbefore, List.idxOf_append_of_mem hbefore]
      rw [Precedes, IsFreedBefore, hlatest a rfl, hlatest b hdepth.symm] at hfirst
      rw [Precedes, IsFreedBefore] at hfirst'
      omega

/-- The roots stand in the order of their declaration. -/
lemma WellFormed.roots_eq (hsorted : g.order.Pairwise (g.IsFreedBefore g.order)) :
    g.roots = (g.tasks.filter fun t => t.dependencies.isEmpty).map (·.id) := by
  have hlatest : ∀ x ∈ g.roots, g.latest g.order x = 0 := by
    intro x hx
    rw [latest, List.isEmpty_iff.1 (List.mem_filter.1 hx).2]
    rfl
  have hfound : g.roots.Pairwise fun a b => g.place a < g.place b := by
    refine (hsorted.sublist List.filter_sublist).imp_of_mem fun {a b} ha hb hab => ?_
    rw [IsFreedBefore, hlatest a ha, hlatest b hb] at hab
    simpa using hab
  have hsub := (List.filter_sublist (p := fun t => t.dependencies.isEmpty) (l := g.tasks)).map
    (·.id)
  have hdeclared : ((g.tasks.filter fun t => t.dependencies.isEmpty).map (·.id)).Pairwise
      fun a b => g.place a < g.place b := (pairwise_idxOf_lt hg.ids_nodup).sublist hsub
  have hmem : ∀ x, x ∈ g.roots ↔
      x ∈ (g.tasks.filter fun t => t.dependencies.isEmpty).map (·.id) := by
    intro x
    rw [hg.mem_roots_iff]
    constructor
    · rintro ⟨hx, hdeps⟩
      obtain ⟨t, ht, rfl⟩ := List.mem_map.1 hx
      rw [hg.dependenciesOf_of_mem ht] at hdeps
      exact List.mem_map.2 ⟨t, List.mem_filter.2 ⟨ht, by simp [hdeps]⟩, rfl⟩
    · intro hx
      obtain ⟨t, ht, rfl⟩ := List.mem_map.1 hx
      obtain ⟨ht, hdeps⟩ := List.mem_filter.1 ht
      refine ⟨List.mem_map.2 ⟨t, ht, rfl⟩, ?_⟩
      rw [hg.dependenciesOf_of_mem ht]
      simpa using hdeps
  have hperm := (List.perm_ext_iff_of_nodup (hg.order_nodup.filter _)
    (hg.ids_nodup.sublist hsub)).2 hmem
  exact hperm.eq_of_pairwise (fun a b _ _ hab hba => absurd hab (Nat.lt_asymm hba)) hfound hdeclared

omit hg in
/-- The roots come first. -/
lemma roots_prefix (hsorted : g.order.Pairwise (g.IsFreedBefore g.order)) :
    g.roots <+: g.order := by
  have hfirst : g.order.Pairwise fun a b =>
      (g.dependenciesOf b).isEmpty = true → (g.dependenciesOf a).isEmpty = true := by
    refine hsorted.imp fun {a b} hab hb => ?_
    have hnone : g.latest g.order b = 0 := by
      rw [latest, List.isEmpty_iff.1 hb]
      rfl
    rw [List.isEmpty_iff, List.eq_nil_iff_forall_not_mem]
    intro d hd
    have hd := idxOf_lt_latest g.order hd
    rcases hab with hab | ⟨hab, -⟩ <;> omega
  exact filter_prefix hfirst

end Order

/-! ### Dependencies in another order -/

section Reordered

/-- The same tasks in the same order, each with the same dependencies in some order. -/
abbrev Reordered (tasks tasks' : List TaskDefinition) : Prop :=
  List.Forall₂ (fun t u => t.id = u.id ∧ t.dependencies.Perm u.dependencies) tasks tasks'

variable {tasks tasks' : List TaskDefinition} (h : Reordered tasks tasks')
include h

/-- Tasks whose dependencies are reordered have the same identifiers. -/
lemma Reordered.map_id : tasks.map (·.id) = tasks'.map (·.id) := by
  induction h with
  | nil => rfl
  | cons ht _ ih => rw [List.map_cons, List.map_cons, ht.1, ih]

/-- Tasks whose dependencies are reordered have the same dependents. -/
lemma Reordered.dependentsIn (id : TaskId) : dependentsIn tasks id = dependentsIn tasks' id := by
  induction h with
  | nil => rfl
  | @cons t u _ _ ht _ ih =>
    have hmem : id ∈ t.dependencies ↔ id ∈ u.dependencies := ht.2.mem_iff
    simp only [TaskGraph.dependentsIn, List.filter_cons, hmem] at ih ⊢
    split
    · rw [List.map_cons, List.map_cons, ht.1, ih]
    · exact ih

/-- Tasks whose dependencies are reordered have as many of them. -/
lemma Reordered.degrees : tasks.map (fun t => (t.id, t.dependencies.length)) =
    tasks'.map fun t => (t.id, t.dependencies.length) := by
  induction h with
  | nil => rfl
  | cons ht _ ih => rw [List.map_cons, List.map_cons, ht.1, ht.2.length_eq, ih]

/-- Tasks whose dependencies are reordered are independent if they were. -/
lemma Reordered.independent : (tasks.filter fun t => t.dependencies.isEmpty).map (·.id) =
    (tasks'.filter fun t => t.dependencies.isEmpty).map (·.id) := by
  induction h with
  | nil => rfl
  | @cons t u _ _ ht _ ih =>
    have hempty : t.dependencies.isEmpty = u.dependencies.isEmpty := by
      rw [Bool.eq_iff_iff, List.isEmpty_iff_length_eq_zero, List.isEmpty_iff_length_eq_zero,
        ht.2.length_eq]
    simp only [List.filter_cons, hempty]
    split
    · rw [List.map_cons, List.map_cons, ht.1, ih]
    · exact ih

/-- Tasks whose dependencies are reordered make the same start. -/
lemma Reordered.start : Frontier.start tasks = Frontier.start tasks' := by
  rw [Frontier.start, h.degrees, h.independent, Frontier.start]

/-- Tasks whose dependencies are reordered are taken in the same way. -/
lemma Reordered.takeAll (fuel : Nat) (f : Frontier) :
    f.takeAll tasks fuel = f.takeAll tasks' fuel := by
  induction fuel generalizing f with
  | zero => rfl
  | succ fuel ih => simp only [Frontier.takeAll, h.dependentsIn, ih]

/-- Tasks whose dependencies are reordered are taken in the same order. -/
lemma Reordered.taken : taken tasks = taken tasks' := by
  rw [TaskGraph.taken, TaskGraph.taken, h.start, h.takeAll, h.length_eq]

/-- Tasks whose dependencies are reordered still know all of them. -/
lemma Reordered.known (hknown : ∀ t ∈ tasks, ∀ d ∈ t.dependencies, d ∈ tasks.map (·.id)) :
    ∀ u ∈ tasks', ∀ d ∈ u.dependencies, d ∈ tasks'.map (·.id) := by
  intro u hu d hd
  have hdependent : u.id ∈ TaskGraph.dependentsIn tasks d := by
    rw [h.dependentsIn]
    exact List.mem_map.2 ⟨u, List.mem_filter.2 ⟨hu, by simpa using hd⟩, rfl⟩
  obtain ⟨t, ht, -⟩ := List.mem_map.1 hdependent
  obtain ⟨ht, hdep⟩ := List.mem_filter.1 ht
  rw [← h.map_id]
  exact hknown t ht d (by simpa using hdep)

/-- Such tasks are a graph together, with one order. -/
lemma Reordered.build_eq (hg : build tasks = .ok ⟨tasks, TaskGraph.taken tasks⟩) :
    build tasks' = .ok ⟨tasks', TaskGraph.taken tasks⟩ := by
  have hwf := wellFormed_of_build hg
  have hall : (TaskGraph.taken tasks).length = tasks.length := by
    simpa using hwf.order_perm.length_eq
  have hids : (tasks'.map (·.id)).Nodup := h.map_id ▸ hwf.ids_nodup
  rw [TaskGraph.build_eq hids (h.known hwf.declared), ← h.taken, if_pos (hall.trans h.length_eq)]

end Reordered

/-- **The order of a graph is canonical**: of all rearrangements of the declared tasks it is the one
that is sorted by depth, then by the place of the latest dependency, then by declaration, where the
depth of a task is the length of the longest chain of dependencies below it. So it goes level by
level, beginning with the roots in the order of their declaration. It is the same whatever the
tables of dependents and of degrees look like inside, and whatever the order in which a task names
its dependencies.

**Proof sketch.** The search keeps its queue sorted by the latest dependency, and along such a list
depths do not fall. Two lists that are sorted by all three agree place by place. The search only
looks tables up, and only asks who names a task and how many a task names. -/
theorem order_is_canonical {tasks : List TaskDefinition} (hg : build tasks = .ok g) :
    g.tasks = tasks ∧ (∀ id, IsGreatest {n | Chain tasks n id} (g.depth id)) ∧
    (∀ order, g.IsCanonical order ↔ order = g.order) ∧
    g.order.Pairwise (fun a b => g.depth a ≤ g.depth b) ∧
    g.roots <+: g.order ∧
    g.roots = (tasks.filter fun t => t.dependencies.isEmpty).map (·.id) ∧
    (∀ edges degrees, (∀ id ∈ tasks.map (·.id), edges.get? id = some (g.dependentsOf id)) →
      (∀ id, degrees.get? id = (Frontier.start tasks).degrees.get? id) →
      (Frontier.takeAll? edges tasks.length ⟨degrees, (Frontier.start tasks).queue⟩).map Prod.fst =
        some g.order) ∧
    ∀ tasks', Reordered tasks tasks' → ∃ g', build tasks' = .ok g' ∧ g'.order = g.order := by
  have hwf := wellFormed_of_build hg
  obtain rfl := eq_of_build hg
  have hids : (tasks.map (·.id)).Nodup := hwf.ids_nodup
  have hsorted : (taken tasks).Pairwise (IsFreedBefore ⟨tasks, taken tasks⟩ (taken tasks)) := by
    have hall := Frontier.Sorted.takeAll hwf tasks.length (Frontier.inv_start hids)
      (Frontier.sorted_start hwf)
    rwa [show ((Frontier.start tasks).takeAll tasks tasks.length).2.queue = [] from queue_left hids,
      Frontier.Sorted, List.append_nil] at hall
  have hcanonical := hwf.isCanonical hsorted
  refine ⟨rfl, hwf.isGreatest_depth, fun order => ⟨fun h => ?_, fun h => h ▸ hcanonical⟩, ?_,
    roots_prefix hsorted, hwf.roots_eq hsorted, fun edges degrees hedges hdegrees => ?_,
    fun tasks' h => ?_⟩
  · have hnil : ∀ {l : List TaskId}, IsCanonical ⟨tasks, taken tasks⟩ l →
        IsCanonical ⟨tasks, taken tasks⟩ ([] ++ l) := fun h => h
    exact hwf.eq_of_isCanonical (hnil h) (hnil hcanonical)
  · refine hcanonical.sorted.imp fun {a b} hab => ?_
    rcases hab with hlt | ⟨heq, -⟩
    · exact Nat.le_of_lt hlt
    · exact Nat.le_of_eq heq
  · have hinv : Frontier.Inv tasks [] ⟨degrees, (Frontier.start tasks).queue⟩ :=
      { Frontier.inv_start hids with
        degree := fun t ht => by
          rw [hdegrees]
          exact (Frontier.inv_start hids).degree t ht }
    have hsame : (Frontier.takeAll tasks tasks.length ⟨degrees, (Frontier.start tasks).queue⟩).1 =
        ((Frontier.start tasks).takeAll tasks tasks.length).1 :=
      Frontier.takeAll_congr hids (by rfl) hdegrees tasks.length
    rw [hinv.takeAll? hids hedges, Option.map_some, hsame, taken]
  · exact ⟨_, h.build_eq hg, rfl⟩

/-- Two roots, a level of three tasks, and a task that needs one of each. -/
def ladder : List TaskDefinition :=
  [waiter "e" ["a", "d"], waiter "c" ["b"], waiter "d" ["b"], waiter "f" ["a"], waiter "b" [],
    waiter "a" []]

/-- The task `d` comes before `f`, since its dependency does, and no other order is canonical. -/
theorem ladder_is_canonical :
    let g : TaskGraph := ⟨ladder, [⟨"b"⟩, ⟨"a"⟩, ⟨"c"⟩, ⟨"d"⟩, ⟨"f"⟩, ⟨"e"⟩]⟩
    build ladder = .ok g ∧ g.IsCanonical g.order ∧ g.depth ⟨"e"⟩ = 2 ∧
      Chain ladder 2 ⟨"e"⟩ ∧ ¬ g.IsCanonical [⟨"b"⟩, ⟨"a"⟩, ⟨"c"⟩, ⟨"f"⟩, ⟨"d"⟩, ⟨"e"⟩] := by
  intro g
  have hbuild : build ladder = .ok g := rfl
  obtain ⟨-, hdepth, hcanonical, -⟩ := order_is_canonical hbuild
  have he : g.depth ⟨"e"⟩ = 2 := by decide +kernel
  refine ⟨hbuild, (hcanonical _).2 rfl, he, he ▸ (hdepth ⟨"e"⟩).1, fun h => ?_⟩
  exact absurd ((hcanonical _).1 h) (by decide)

end TaskGraph

end Taskflow
