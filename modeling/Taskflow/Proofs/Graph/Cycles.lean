import Mathlib.Data.Set.Finite.Basic
import Mathlib.Logic.Relation
import Mathlib.Order.WellFounded
import Taskflow.Proofs.Graph.Order
set_option autoImplicit false

/-!
# Cycles of dependencies

Tasks are taken as long as one of them is free. What is left in the end are the tasks from which a
cycle is reached by following dependencies: all others are taken, and none of these has a place in
any order in which dependencies come first. The tasks that are left are the ones that are reported.

## Main definitions

* `TaskGraph.Names` — a declared task names another as its dependency.
* `TaskGraph.OnCycle`, `TaskGraph.LeadsToCycle` — tasks on a cycle, and tasks that need one.
* `TaskGraph.Respects` — a list in which dependencies come first.
* `TaskGraph.taken`, `TaskGraph.left` — what the search for an order takes, and where it stops.

## Main results

* `TaskGraph.queue_left` — the search stops only when no task is free.
* `TaskGraph.orderOf_eq` — the order holds what is taken, and the report what is not.
* `TaskGraph.Respects.not_leadsToCycle`, `TaskGraph.mem_taken_of_not_leadsToCycle` — what is taken
  leads to no cycle, and what leads to no cycle is taken.
* `TaskGraph.involved_lead_to_cycle` — the tasks that are reported with a cycle.

## Design

A task that leads to no cycle is taken by well-founded induction: the tasks reached from it are
finitely many, and following dependencies among them never comes back. Conversely a dependency has
an earlier place in a list that respects dependencies, and on a cycle the places would fall for
ever.
-/

namespace Taskflow

namespace TaskGraph

variable {tasks : List TaskDefinition} {id d : TaskId} {t : TaskDefinition} {order : List TaskId}

/-- The task `id` is declared and names `d` among its dependencies. -/
def Names (tasks : List TaskDefinition) (id d : TaskId) : Prop :=
  ∃ t ∈ tasks, t.id = id ∧ d ∈ t.dependencies

instance (tasks : List TaskDefinition) (id d : TaskId) : Decidable (Names tasks id d) :=
  inferInstanceAs (Decidable (∃ t ∈ tasks, t.id = id ∧ d ∈ t.dependencies))

/-- Following dependencies leads from the task back to it. -/
def OnCycle (tasks : List TaskDefinition) (id : TaskId) : Prop :=
  Relation.TransGen (Names tasks) id id

/-- Following dependencies leads from the task to a cycle, on which it may lie itself. -/
def LeadsToCycle (tasks : List TaskDefinition) (id : TaskId) : Prop :=
  ∃ c, Relation.ReflTransGen (Names tasks) id c ∧ OnCycle tasks c

/-- Dependencies come first. With a task, such a list holds all that the task needs, directly or
through others. -/
def Respects (tasks : List TaskDefinition) (order : List TaskId) : Prop :=
  ∀ before x after, order = before ++ x :: after → ∀ d, Names tasks x d → d ∈ before

/-- The tasks that are taken, in their order. -/
def taken (tasks : List TaskDefinition) : List TaskId :=
  ((Frontier.start tasks).takeAll tasks tasks.length).1

/-- What is left when no more tasks are taken. -/
def left (tasks : List TaskDefinition) : Frontier :=
  ((Frontier.start tasks).takeAll tasks tasks.length).2

/-- Only what is declared has dependencies. -/
lemma LeadsToCycle.declared (h : LeadsToCycle tasks id) : id ∈ tasks.map (·.id) := by
  obtain ⟨c, hreach, hcycle⟩ := h
  have hnames : ∃ d, Names tasks id d := by
    obtain ⟨d, hd, -⟩ := Relation.TransGen.head'_iff.1 (Relation.TransGen.trans_right hreach hcycle)
    exact ⟨d, hd⟩
  obtain ⟨-, t, ht, rfl, -⟩ := hnames
  exact List.mem_map.2 ⟨t, ht, rfl⟩

/-- The order of a graph that is built is what was taken. -/
lemma eq_of_build {g : TaskGraph} (h : build tasks = .ok g) : g = ⟨tasks, taken tasks⟩ := by
  unfold build at h
  split at h
  · cases h
  · split at h
    · cases h
    · split at h
      next order horder =>
        cases h
        unfold orderOf at horder
        split at horder
        next order' f htake =>
          split at horder
          · cases horder
            rw [taken, htake]
          · cases horder
      next => cases h

/-- What a task of a graph names are its dependencies. -/
lemma WellFormed.names_iff {g : TaskGraph} (hg : g.WellFormed) :
    Names g.tasks id d ↔ d ∈ g.dependenciesOf id := by
  constructor
  · rintro ⟨t, ht, rfl, hd⟩
    rwa [hg.dependenciesOf_of_mem ht]
  · intro hd
    rw [dependenciesOf] at hd
    cases htask : g.task? id with
    | none =>
      rw [htask] at hd
      cases hd
    | some t =>
      rw [htask] at hd
      exact ⟨t, List.mem_of_find?_eq_some htask, by simpa using List.find?_some htask, hd⟩

/-! ### Places in a list that respects dependencies -/

/-- An order in which dependencies are taken before respects them. -/
lemma respects_of_ordered (h : ∀ i, ∀ t ∈ tasks, order[i]? = some t.id →
    ∀ d ∈ t.dependencies, d ∈ order.take i) : Respects tasks order := by
  rintro before x after hsplit d ⟨t, ht, rfl, hd⟩
  have hmem := h before.length t ht (by simp [hsplit]) d hd
  rwa [hsplit, List.take_left] at hmem

/-- The order of a graph respects the dependencies. -/
lemma WellFormed.respects {g : TaskGraph} (hg : g.WellFormed) : Respects g.tasks g.order :=
  respects_of_ordered hg.ordered

namespace Respects

/-- A dependency has an earlier place. -/
lemma earlier_of_names (h : Respects tasks order) (hn : Names tasks id d) (hid : id ∈ order) :
    d ∈ order ∧ order.idxOf d < order.idxOf id := by
  have hlt := List.idxOf_lt_length_of_mem hid
  have hsplit : order = order.take (order.idxOf id) ++ id :: order.drop (order.idxOf id + 1) := by
    have hdrop := List.drop_eq_getElem_cons hlt
    rw [List.getElem_idxOf hlt] at hdrop
    rw [← hdrop, List.take_append_drop]
  have hmem := h _ id _ hsplit d hn
  have hd := List.take_subset _ _ hmem
  exact ⟨hd, (List.mem_take_iff_idxOf_lt hd).1 hmem⟩

/-- What is needed, directly or through others, has an earlier place. -/
lemma earlier_of_transGen (h : Respects tasks order) (hn : Relation.TransGen (Names tasks) id d)
    (hid : id ∈ order) : d ∈ order ∧ order.idxOf d < order.idxOf id := by
  induction hn with
  | single hn => exact h.earlier_of_names hn hid
  | tail _ hn ih =>
    obtain ⟨hmem, hlt⟩ := h.earlier_of_names hn ih.1
    exact ⟨hmem, Nat.lt_trans hlt ih.2⟩

/-- **A list that respects dependencies holds no task that leads to a cycle.** -/
lemma not_leadsToCycle (h : Respects tasks order) (hid : id ∈ order) :
    ¬ LeadsToCycle tasks id := by
  rintro ⟨c, hreach, hcycle⟩
  have hc : c ∈ order := by
    rcases Relation.reflTransGen_iff_eq_or_transGen.1 hreach with rfl | hreach
    · exact hid
    · exact (h.earlier_of_transGen hreach hid).1
  exact Nat.lt_irrefl _ (h.earlier_of_transGen hcycle hc).2

end Respects

/-! ### Where the search stops -/

/-- The search stops because no task is free or because its fuel is used up. -/
lemma Frontier.queue_takeAll (f : Frontier) (fuel : Nat) :
    (f.takeAll tasks fuel).2.queue = [] ∨ (f.takeAll tasks fuel).1.length = fuel := by
  induction fuel generalizing f with
  | zero => exact .inr rfl
  | succ fuel ih =>
    obtain ⟨degrees, queue⟩ := f
    cases queue with
    | nil => exact .inl rfl
    | cons id queue =>
      rcases ih ((dependentsIn tasks id).foldl release ⟨degrees, queue⟩) with h | h
      · exact .inl h
      · exact .inr (by simp only [Frontier.takeAll, List.length_cons, h])

section Distinct

variable (hids : (tasks.map (·.id)).Nodup)
include hids

/-- What is known of the frontier when it is exhausted. -/
lemma inv_taken : Frontier.Inv tasks (taken tasks) (left tasks) :=
  (Frontier.inv_start hids).takeAll hids tasks.length

/-- Only identifiers of tasks are taken. -/
lemma taken_subset : taken tasks ⊆ tasks.map (·.id) := fun x hx =>
  (inv_taken hids).declared x (List.mem_append_left _ hx)

/-- No identifier is taken twice. -/
lemma nodup_taken : (taken tasks).Nodup := (List.nodup_append.1 (inv_taken hids).nodup).1

/-- What is taken respects the dependencies. -/
lemma respects_taken : Respects tasks (taken tasks) := respects_of_ordered (inv_taken hids).ordered

/-- **The search stops only when no task is free.** Its fuel is the number of tasks, and no task
is taken twice. -/
lemma queue_left : (left tasks).queue = [] := by
  have hinv := inv_taken hids
  have hle := (List.subperm_of_subset hinv.nodup hinv.declared).length_le
  rw [List.length_append, List.length_map] at hle
  have hstop : (left tasks).queue = [] ∨ (taken tasks).length = tasks.length :=
    Frontier.queue_takeAll _ _
  rcases hstop with h | h
  · exact h
  · exact List.length_eq_zero_iff.1 (by omega)

/-- A task is taken exactly if its dependencies are. -/
lemma mem_taken_iff (ht : t ∈ tasks) :
    t.id ∈ taken tasks ↔ ∀ d ∈ t.dependencies, d ∈ taken tasks := by
  have hfree := (inv_taken hids).free t ht
  rwa [queue_left hids, List.append_nil] at hfree

/-- Some dependency of a task is still counted exactly if the task is left. -/
lemma degree_pos_iff (ht : t ∈ tasks) :
    0 < ((left tasks).degrees.get? t.id).getD 0 ↔ t.id ∉ taken tasks := by
  rw [(inv_taken hids).degree t ht, Option.getD_some, List.countP_pos_iff, mem_taken_iff hids ht]
  simp

/-- There is an order if all tasks are taken; otherwise those that are left are reported. -/
lemma orderOf_eq : orderOf tasks =
    if (taken tasks).length = tasks.length then .ok (taken tasks)
    else .error ((tasks.map (·.id)).filter fun id => decide (id ∉ taken tasks)) := by
  have hfilter : ((tasks.map (·.id)).filter fun id =>
      decide (0 < ((left tasks).degrees.get? id).getD 0)) =
        (tasks.map (·.id)).filter fun id => decide (id ∉ taken tasks) := by
    refine List.filter_congr fun id hid => ?_
    obtain ⟨t, ht, rfl⟩ := List.mem_map.1 hid
    rw [decide_eq_decide, degree_pos_iff hids ht]
  rw [← hfilter]
  rfl

/-! ### What leads to no cycle -/

/-- **A declared task that leads to no cycle is taken**, if all dependencies are declared.

**Proof sketch.** Among the tasks that are reached from it, which are finitely many, the relation
"needs, directly or through others" is transitive and, without a cycle, irreflexive. So it is
well-founded, and a task is taken once its dependencies are. -/
lemma mem_taken_of_not_leadsToCycle
    (hknown : ∀ t ∈ tasks, ∀ d ∈ t.dependencies, d ∈ tasks.map (·.id))
    (hid : id ∈ tasks.map (·.id)) (h : ¬ LeadsToCycle tasks id) : id ∈ taken tasks := by
  let Reached := {x : TaskId // x ∈ tasks.map (·.id) ∧ Relation.ReflTransGen (Names tasks) id x}
  let Needs : Reached → Reached → Prop := fun b a => Relation.TransGen (Names tasks) a.1 b.1
  have : Finite Reached :=
    ((List.finite_toSet (tasks.map (·.id))).subset fun _ hx => hx.1).to_subtype
  have : IsTrans Reached Needs := ⟨fun _ _ _ hab hbc => hbc.trans hab⟩
  have : Std.Irrefl Needs := ⟨fun x hx => h ⟨x.1, x.2.2, hx⟩⟩
  suffices hall : ∀ x : Reached, x.1 ∈ taken tasks from hall ⟨id, hid, .refl⟩
  intro x
  induction x using (Finite.wellFounded_of_trans_of_irrefl Needs).induction with
  | _ x ih =>
    obtain ⟨x, hx, hreach⟩ := x
    obtain ⟨t, ht, rfl⟩ := List.mem_map.1 hx
    refine (mem_taken_iff hids ht).2 fun d hd => ?_
    have hn : Names tasks t.id d := ⟨t, ht, rfl, hd⟩
    exact ih ⟨d, hknown t ht d hd, hreach.tail hn⟩ (.single hn)

/-- All tasks are taken exactly if there is no cycle. -/
lemma length_taken_iff (hknown : ∀ t ∈ tasks, ∀ d ∈ t.dependencies, d ∈ tasks.map (·.id)) :
    (taken tasks).length = tasks.length ↔ ∀ id, ¬ OnCycle tasks id := by
  constructor
  · intro hlen id hcycle
    have hperm : (taken tasks).Perm (tasks.map (·.id)) :=
      (List.subperm_of_subset (nodup_taken hids) (taken_subset hids)).perm_of_length_le
        (by simp [hlen])
    obtain ⟨d, ⟨t, ht, rfl, -⟩, -⟩ := Relation.TransGen.head'_iff.1 hcycle
    exact (respects_taken hids).not_leadsToCycle
      (hperm.mem_iff.2 (List.mem_map.2 ⟨t, ht, rfl⟩)) ⟨t.id, .refl, hcycle⟩
  · intro hacyclic
    have hall : tasks.map (·.id) ⊆ taken tasks := fun id hid =>
      mem_taken_of_not_leadsToCycle hids hknown hid fun ⟨c, _, hc⟩ => hacyclic c hc
    have hle := (List.subperm_of_subset (nodup_taken hids) (taken_subset hids)).length_le
    have hge := (List.subperm_of_subset hids hall).length_le
    rw [List.length_map] at hle hge
    exact Nat.le_antisymm hle hge

/-- The answer to distinct tasks with declared dependencies. -/
lemma build_eq (hknown : ∀ t ∈ tasks, ∀ d ∈ t.dependencies, d ∈ tasks.map (·.id)) :
    build tasks =
      if (taken tasks).length = tasks.length then .ok ⟨tasks, taken tasks⟩
      else .error (.circularDependency
        ((tasks.map (·.id)).filter fun id => decide (id ∉ taken tasks))) := by
  have hrepeated : firstRepeated? [] tasks = none :=
    firstRepeated?_of_nodup hids fun _ _ h => by cases h
  have hunknown : firstUnknown? (tasks.map (·.id)) tasks = none := by
    refine List.findSome?_eq_none_iff.2 fun t ht => ?_
    rw [Option.map_eq_none_iff, List.find?_eq_none]
    intro d hd
    simpa using hknown t ht d hd
  rw [build, hrepeated, hunknown, orderOf_eq hids]
  by_cases hall : (taken tasks).length = tasks.length
  · simp only [if_pos hall]
  · simp only [if_neg hall]

/-- **The tasks that are reported with a cycle are those that lead to one**, each once and in the
order of their declaration. Among them are all tasks on cycles, and they are exactly the declared
tasks that have no place in any order in which dependencies come first.

**Proof sketch.** What is reported is what is not taken. A task that is taken stands in an order in
which dependencies come first, and nothing in such an order leads to a cycle; a declared task that
leads to no cycle is taken. -/
theorem involved_lead_to_cycle
    (hknown : ∀ t ∈ tasks, ∀ d ∈ t.dependencies, d ∈ tasks.map (·.id))
    (hcycle : ∃ id, OnCycle tasks id) :
    ∃ involved, build tasks = .error (.circularDependency involved) ∧
      involved.Sublist (tasks.map (·.id)) ∧ involved.Nodup ∧
      (∀ id, id ∈ involved ↔ LeadsToCycle tasks id) ∧
      involved ≠ [] ∧ (∀ id, OnCycle tasks id → id ∈ involved) ∧
      ∀ t ∈ tasks, t.id ∈ involved ↔ ¬ ∃ order, t.id ∈ order ∧ Respects tasks order := by
  have hleft : ¬ (taken tasks).length = tasks.length := by
    rw [length_taken_iff hids hknown]
    exact fun h => hcycle.elim h
  have hmem : ∀ id, id ∈ (tasks.map (·.id)).filter (fun id => decide (id ∉ taken tasks)) ↔
      LeadsToCycle tasks id := by
    intro id
    rw [List.mem_filter, decide_eq_true_iff]
    constructor
    · rintro ⟨hid, hnot⟩
      by_contra hleads
      exact hnot (mem_taken_of_not_leadsToCycle hids hknown hid hleads)
    · intro hleads
      exact ⟨hleads.declared, fun hid => (respects_taken hids).not_leadsToCycle hid hleads⟩
  have honCycle : ∀ id, OnCycle tasks id → LeadsToCycle tasks id := fun id h => ⟨id, .refl, h⟩
  refine ⟨_, by rw [build_eq hids hknown, if_neg hleft], List.filter_sublist, hids.filter _, hmem,
    ?_, fun id h => (hmem id).2 (honCycle id h), fun t ht => ?_⟩
  · obtain ⟨id, hid⟩ := hcycle
    exact List.ne_nil_of_mem ((hmem id).2 (honCycle id hid))
  · rw [hmem]
    constructor
    · rintro hleads ⟨order, hid, horder⟩
      exact horder.not_leadsToCycle hid hleads
    · intro hnone
      by_contra hleads
      have hid := mem_taken_of_not_leadsToCycle hids hknown (List.mem_map.2 ⟨t, ht, rfl⟩) hleads
      exact hnone ⟨taken tasks, hid, respects_taken hids⟩

end Distinct

/-- A task that does nothing but wait for others. -/
def waiter (id : String) (dependencies : List String) : TaskDefinition :=
  (TaskDefinition.ofComputation ⟨id⟩ fun _ => .finish (.ok .null)).withDependencies
    (dependencies.map TaskId.mk)

/-- The tasks `a`, `b` and `c` wait for one another, `d` for one of them, and `y` for none. -/
def knot : List TaskDefinition :=
  [waiter "x" [], waiter "d" ["a", "x"], waiter "a" ["c"], waiter "b" ["a"], waiter "c" ["b"],
    waiter "y" ["x"]]

/-- The task `d` is on no cycle, but it is reported. -/
theorem knot_is_reported :
    build knot = .error (.circularDependency [⟨"d"⟩, ⟨"a"⟩, ⟨"b"⟩, ⟨"c"⟩]) ∧
      LeadsToCycle knot ⟨"d"⟩ ∧ ¬ LeadsToCycle knot ⟨"y"⟩ := by
  have hids : (knot.map (·.id)).Nodup := by decide
  have hknown : ∀ t ∈ knot, ∀ d ∈ t.dependencies, d ∈ knot.map (·.id) := by decide
  have hac : Names knot ⟨"a"⟩ ⟨"c"⟩ := by decide
  have hcb : Names knot ⟨"c"⟩ ⟨"b"⟩ := by decide
  have hba : Names knot ⟨"b"⟩ ⟨"a"⟩ := by decide
  have hcycle : ∃ id, OnCycle knot id := ⟨⟨"a"⟩, .head hac (.head hcb (.single hba))⟩
  obtain ⟨involved, hbuild, -, -, hmem, -⟩ := involved_lead_to_cycle hids hknown hcycle
  have hsome : build knot = .error (.circularDependency [⟨"d"⟩, ⟨"a"⟩, ⟨"b"⟩, ⟨"c"⟩]) := by rfl
  obtain rfl : involved = [⟨"d"⟩, ⟨"a"⟩, ⟨"b"⟩, ⟨"c"⟩] := by
    rw [hsome] at hbuild
    cases hbuild
    rfl
  exact ⟨hsome, (hmem _).1 (by decide), fun h => absurd ((hmem _).2 h) (by decide)⟩

end TaskGraph

end Taskflow
