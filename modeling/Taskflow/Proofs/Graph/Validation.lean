import Taskflow.Proofs.Graph.Edges
set_option autoImplicit false

/-!
# The checks of a graph

A list of tasks is a graph, or it has exactly one of three faults: an identifier is declared twice,
or else a dependency is not declared, or else following dependencies leads in a circle. The first
place in the list where the fault shows is the one that is reported.

## Main definitions

* `TaskGraph.FirstRepeats` — the first identifier that is declared a second time.
* `TaskGraph.FirstUnknown` — the first dependency that is not declared, and who names it.
* `TaskGraph.Answered` — the answers, each with its condition.

## Main results

* `TaskGraph.build_of_firstRepeats`, `TaskGraph.build_of_firstUnknown` — the first two faults.
* `TaskGraph.answered_build` — every list of tasks gets the answer for the first fault that it has.
* `TaskGraph.validation_is_exact` — which list gets which answer, and what a graph promises.
-/

namespace Taskflow

namespace TaskGraph

variable {tasks : List TaskDefinition} {id d : TaskId} {g : TaskGraph}

/-- The task that is declared last in some first part of the list repeats the identifier `id`, and
nothing is repeated before it. -/
def FirstRepeats (tasks : List TaskDefinition) (id : TaskId) : Prop :=
  ∃ before t after, tasks = before ++ t :: after ∧ t.id = id ∧ id ∈ before.map (·.id) ∧
    (before.map (·.id)).Nodup

/-- The task `id` names `d`, which is not declared. All dependencies of the tasks before it are
declared, and so are those that it names before `d`. -/
def FirstUnknown (tasks : List TaskDefinition) (d id : TaskId) : Prop :=
  ∃ before t after earlier later, tasks = before ++ t :: after ∧ t.id = id ∧
    t.dependencies = earlier ++ d :: later ∧ d ∉ tasks.map (·.id) ∧
    (∀ u ∈ before, ∀ e ∈ u.dependencies, e ∈ tasks.map (·.id)) ∧
    ∀ e ∈ earlier, e ∈ tasks.map (·.id)

/-! ### Identifiers that are declared twice -/

/-- What the search for a repeated identifier finds, if some have been seen before. -/
lemma firstRepeated?_eq_some_iff {seen : List TaskId} : firstRepeated? seen tasks = some id ↔
    ∃ before t after, tasks = before ++ t :: after ∧ t.id = id ∧
      (id ∈ seen ∨ id ∈ before.map (·.id)) ∧ (before.map (·.id)).Nodup ∧
      ∀ u ∈ before, u.id ∉ seen := by
  induction tasks generalizing seen with
  | nil => simp [firstRepeated?]
  | cons t rest ih =>
    rw [firstRepeated?]
    by_cases hseen : t.id ∈ seen
    · rw [if_pos hseen]
      constructor
      · intro h
        obtain rfl := Option.some_inj.1 h
        exact ⟨[], t, rest, rfl, rfl, .inl hseen, by simp, by simp⟩
      · rintro ⟨before, u, after, hsplit, rfl, hid, -, hbefore⟩
        cases before with
        | nil =>
          obtain ⟨rfl, -⟩ := List.cons_eq_cons.1 hsplit
          rfl
        | cons v before =>
          obtain ⟨rfl, -⟩ := List.cons_eq_cons.1 hsplit
          exact absurd hseen (hbefore _ List.mem_cons_self)
    · rw [if_neg hseen, ih]
      constructor
      · rintro ⟨before, u, after, rfl, rfl, hid, hnodup, hbefore⟩
        refine ⟨t :: before, u, after, rfl, rfl, ?_, ?_, ?_⟩
        · simp only [List.mem_cons, List.map_cons] at hid ⊢
          tauto
        · rw [List.map_cons, List.nodup_cons]
          refine ⟨fun hmem => ?_, hnodup⟩
          obtain ⟨v, hv, hvid⟩ := List.mem_map.1 hmem
          exact hbefore v hv (hvid ▸ List.mem_cons_self)
        · intro v hv
          rcases List.mem_cons.1 hv with rfl | hv
          · exact hseen
          · exact fun hmem => hbefore v hv (List.mem_cons_of_mem _ hmem)
      · rintro ⟨before, u, after, hsplit, rfl, hid, hnodup, hbefore⟩
        cases before with
        | nil =>
          obtain ⟨rfl, -⟩ := List.cons_eq_cons.1 hsplit
          simp [hseen] at hid
        | cons v before =>
          obtain ⟨rfl, rfl⟩ := List.cons_eq_cons.1 hsplit
          obtain ⟨hnot, hnodup⟩ := List.nodup_cons.1 hnodup
          refine ⟨before, u, after, rfl, rfl, ?_, hnodup, fun w hw hmem => ?_⟩
          · simp only [List.mem_cons, List.map_cons] at hid ⊢
            tauto
          · rcases List.mem_cons.1 hmem with he | hmem
            · exact hnot (List.mem_map.2 ⟨w, hw, he⟩)
            · exact hbefore w (List.mem_cons_of_mem _ hw) hmem

/-- The first identifier that is repeated is found. -/
lemma firstRepeated?_nil_eq_some_iff :
    firstRepeated? [] tasks = some id ↔ FirstRepeats tasks id := by
  simp [firstRepeated?_eq_some_iff, FirstRepeats]

/-- There is a first repetition exactly if there is any. -/
lemma exists_firstRepeats_iff : (∃ id, FirstRepeats tasks id) ↔ ¬ (tasks.map (·.id)).Nodup := by
  constructor
  · rintro ⟨id, before, t, after, rfl, rfl, hid, -⟩ hnodup
    rw [List.map_append, List.map_cons] at hnodup
    exact (List.nodup_append.1 hnodup).2.2 _ hid _ List.mem_cons_self rfl
  · intro hrepeated
    cases h : firstRepeated? [] tasks with
    | some id => exact ⟨id, firstRepeated?_nil_eq_some_iff.1 h⟩
    | none => exact absurd (firstRepeated?_eq_none h).1 hrepeated

/-! ### Dependencies that are not declared -/

/-- The first dependency that is unknown is found. -/
lemma firstUnknown?_eq_some_iff :
    firstUnknown? (tasks.map (·.id)) tasks = some (d, id) ↔ FirstUnknown tasks d id := by
  have hnone : ∀ u : TaskDefinition,
      ((u.dependencies.find? fun dep => decide (dep ∉ tasks.map (·.id))).map fun dep =>
        (dep, u.id)) = none ↔ ∀ e ∈ u.dependencies, e ∈ tasks.map (·.id) := by
    intro u
    rw [Option.map_eq_none_iff, List.find?_eq_none]
    simp
  have hsome : ∀ u : TaskDefinition,
      ((u.dependencies.find? fun dep => decide (dep ∉ tasks.map (·.id))).map fun dep =>
        (dep, u.id)) = some (d, id) ↔ u.id = id ∧ d ∉ tasks.map (·.id) ∧
          ∃ earlier later, u.dependencies = earlier ++ d :: later ∧
            ∀ e ∈ earlier, e ∈ tasks.map (·.id) := by
    intro u
    simp only [Option.map_eq_some_iff, Prod.mk.injEq, List.find?_eq_some_iff_append]
    constructor
    · rintro ⟨dep, ⟨hdep, earlier, later, hsplit, hearlier⟩, rfl, hid⟩
      exact ⟨hid, by simpa using hdep, earlier, later, hsplit, by simpa using hearlier⟩
    · rintro ⟨hid, hdep, earlier, later, hsplit, hearlier⟩
      exact ⟨d, ⟨by simpa using hdep, earlier, later, hsplit, by simpa using hearlier⟩, rfl, hid⟩
  rw [firstUnknown?, List.findSome?_eq_some_iff]
  constructor
  · rintro ⟨before, t, after, hsplit, ht, hbefore⟩
    obtain ⟨hid, hdep, earlier, later, hdeps, hearlier⟩ := (hsome t).1 ht
    exact ⟨before, t, after, earlier, later, hsplit, hid, hdeps, hdep,
      fun u hu => (hnone u).1 (hbefore u hu), hearlier⟩
  · rintro ⟨before, t, after, earlier, later, hsplit, hid, hdeps, hdep, hbefore, hearlier⟩
    exact ⟨before, t, after, hsplit, (hsome t).2 ⟨hid, hdep, earlier, later, hdeps, hearlier⟩,
      fun u hu => (hnone u).2 (hbefore u hu)⟩

/-- There is a first unknown dependency exactly if there is any. -/
lemma exists_firstUnknown_iff : (∃ d id, FirstUnknown tasks d id) ↔
    ∃ t ∈ tasks, ∃ d ∈ t.dependencies, d ∉ tasks.map (·.id) := by
  constructor
  · rintro ⟨d, id, before, t, after, earlier, later, hsplit, -, hdeps, hdep, -⟩
    exact ⟨t, by simp [hsplit], d, by simp [hdeps], hdep⟩
  · rintro ⟨t, ht, d, hd, hdep⟩
    cases h : firstUnknown? (tasks.map (·.id)) tasks with
    | some p => exact ⟨p.1, p.2, firstUnknown?_eq_some_iff.1 h⟩
    | none => exact absurd (firstUnknown?_eq_none h t ht d hd) hdep

/-! ### The answers -/

/-- A repeated identifier is reported first. -/
lemma build_of_firstRepeats (h : FirstRepeats tasks id) :
    build tasks = .error (.duplicateTask id) := by
  rw [build, firstRepeated?_nil_eq_some_iff.2 h]

/-- Where no identifier is repeated, an unknown dependency is reported. -/
lemma build_of_firstUnknown (hids : (tasks.map (·.id)).Nodup) (h : FirstUnknown tasks d id) :
    build tasks = .error (.unknownDependency d id) := by
  have hrepeated : firstRepeated? [] tasks = none :=
    firstRepeated?_of_nodup hids fun _ _ h => by cases h
  rw [build, hrepeated, firstUnknown?_eq_some_iff.2 h]

/-- The answers that a list of tasks can get, each with what is then known of the list. -/
inductive Answered (tasks : List TaskDefinition) : Except GraphError TaskGraph → Prop
  /-- an identifier is declared twice -/
  | duplicate {id : TaskId} (h : FirstRepeats tasks id) (hids : ¬ (tasks.map (·.id)).Nodup) :
    Answered tasks (.error (.duplicateTask id))
  /-- or else a dependency is not declared -/
  | unknown {d id : TaskId} (hids : (tasks.map (·.id)).Nodup) (h : FirstUnknown tasks d id)
    (hknown : ¬ ∀ t ∈ tasks, ∀ d ∈ t.dependencies, d ∈ tasks.map (·.id)) :
    Answered tasks (.error (.unknownDependency d id))
  /-- or else there is a cycle -/
  | circular {involved : List TaskId} (hids : (tasks.map (·.id)).Nodup)
    (hknown : ∀ t ∈ tasks, ∀ d ∈ t.dependencies, d ∈ tasks.map (·.id))
    (hcycle : ∃ id, OnCycle tasks id) :
    Answered tasks (.error (.circularDependency involved))
  /-- or else the list is a graph -/
  | graph (hids : (tasks.map (·.id)).Nodup)
    (hknown : ∀ t ∈ tasks, ∀ d ∈ t.dependencies, d ∈ tasks.map (·.id))
    (hacyclic : ∀ id, ¬ OnCycle tasks id) :
    Answered tasks (.ok ⟨tasks, taken tasks⟩)

/-- **Every list of tasks gets one of the answers**, by the first fault that it has. -/
lemma answered_build (tasks : List TaskDefinition) : Answered tasks (build tasks) := by
  by_cases hids : (tasks.map (·.id)).Nodup
  · by_cases hknown : ∀ t ∈ tasks, ∀ d ∈ t.dependencies, d ∈ tasks.map (·.id)
    · rw [build_eq hids hknown]
      by_cases hall : (taken tasks).length = tasks.length
      · rw [if_pos hall]
        exact .graph hids hknown ((length_taken_iff hids hknown).1 hall)
      · rw [if_neg hall]
        rw [length_taken_iff hids hknown] at hall
        exact .circular hids hknown (by simpa using hall)
    · obtain ⟨d, id, h⟩ := exists_firstUnknown_iff.2 (by simpa using hknown)
      rw [build_of_firstUnknown hids h]
      exact .unknown hids h hknown
  · obtain ⟨id, h⟩ := exists_firstRepeats_iff.2 hids
    rw [build_of_firstRepeats h]
    exact .duplicate h hids

/-! ### What a graph promises -/

/-- The tasks without dependencies, as they stand in the order. -/
lemma WellFormed.mem_roots_iff (hg : g.WellFormed) :
    id ∈ g.roots ↔ id ∈ g.tasks.map (·.id) ∧ g.dependenciesOf id = [] := by
  rw [roots, List.mem_filter, hg.order_perm.mem_iff, List.isEmpty_iff]

/-- A task is a dependent of what it names, and of nothing else. -/
lemma mem_dependentsOf_iff : id ∈ g.dependentsOf d ↔ Names g.tasks id d := by
  simp only [dependentsOf, dependentsIn, List.mem_map, List.mem_filter, decide_eq_true_eq]
  constructor
  · rintro ⟨t, ⟨ht, hd⟩, hid⟩
    exact ⟨t, ht, hid, hd⟩
  · rintro ⟨t, ht, hid, hd⟩
    exact ⟨t, ⟨ht, hd⟩, hid⟩

/-- **The checks of a list of tasks are exact.** An identifier is reported as repeated if and only
if it is the first that is, which there is if and only if one occurs twice. A dependency is reported
as unknown if and only if no identifier is repeated and it is the first that is not declared, task
by task and within a task in its own order. A cycle is reported if and only if there is one and
neither of the other faults. Every other list, and no list with a fault, is a graph. Its order
rearranges the declared identifiers so that every task comes after its dependencies; its roots are
the tasks without dependencies in that order; the dependents of a task are the tasks that name it,
once each and in the order of their declaration, as they are collected edge by edge; and the search
for the order never lowers a count that is zero.

**Proof sketch.** The answers exclude one another and one of them is given, so each is given exactly
under its condition. What a graph promises is `WellFormed`, and the invariant of the search says
that a count is positive when it is lowered. -/
theorem validation_is_exact (tasks : List TaskDefinition) :
    (∀ id, build tasks = .error (.duplicateTask id) ↔ FirstRepeats tasks id) ∧
    ((∃ id, FirstRepeats tasks id) ↔ ¬ (tasks.map (·.id)).Nodup) ∧
    (∀ d id, build tasks = .error (.unknownDependency d id) ↔
      (tasks.map (·.id)).Nodup ∧ FirstUnknown tasks d id) ∧
    ((∃ d id, FirstUnknown tasks d id) ↔
      ∃ t ∈ tasks, ∃ d ∈ t.dependencies, d ∉ tasks.map (·.id)) ∧
    ((∃ involved, build tasks = .error (.circularDependency involved)) ↔
      (tasks.map (·.id)).Nodup ∧ (∀ t ∈ tasks, ∀ d ∈ t.dependencies, d ∈ tasks.map (·.id)) ∧
        ∃ id, OnCycle tasks id) ∧
    ((∃ g, build tasks = .ok g) ↔
      (tasks.map (·.id)).Nodup ∧ (∀ t ∈ tasks, ∀ d ∈ t.dependencies, d ∈ tasks.map (·.id)) ∧
        ∀ id, ¬ OnCycle tasks id) ∧
    ∀ g, build tasks = .ok g →
      g.tasks = tasks ∧ (∀ t ∈ tasks, g.dependenciesOf t.id = t.dependencies) ∧
      g.order.Perm (tasks.map (·.id)) ∧
      (∀ before id after, g.order = before ++ id :: after →
        ∀ d ∈ g.dependenciesOf id, d ∈ before) ∧
      g.roots.Sublist g.order ∧
      (∀ id, id ∈ g.roots ↔ id ∈ tasks.map (·.id) ∧ g.dependenciesOf id = []) ∧
      (∀ d id, id ∈ g.dependentsOf d ↔ d ∈ g.dependenciesOf id) ∧
      (∀ d, (g.dependentsOf d).Sublist (tasks.map (·.id)) ∧ (g.dependentsOf d).Nodup) ∧
      ∃ edges, collectEdges tasks = .ok edges ∧
        (∀ id ∈ tasks.map (·.id), edges.get? id = some (g.dependentsOf id)) ∧
        (Frontier.start tasks).takeAll? edges tasks.length = some (g.order, left tasks) := by
  have hanswer := answered_build tasks
  refine ⟨fun id => ⟨fun h => ?_, build_of_firstRepeats⟩, exists_firstRepeats_iff,
    fun d id => ⟨fun h => ?_, fun h => build_of_firstUnknown h.1 h.2⟩, exists_firstUnknown_iff,
    ⟨?_, ?_⟩, ⟨?_, ?_⟩, fun g hg => ?_⟩
  · rw [h] at hanswer
    cases hanswer with
    | duplicate h _ => exact h
  · rw [h] at hanswer
    cases hanswer with
    | unknown hids h _ => exact ⟨hids, h⟩
  · rintro ⟨involved, h⟩
    rw [h] at hanswer
    cases hanswer with
    | circular hids hknown hcycle => exact ⟨hids, hknown, hcycle⟩
  · rintro ⟨hids, hknown, hcycle⟩
    have hleft : ¬ (taken tasks).length = tasks.length := by
      rw [length_taken_iff hids hknown]
      exact fun h => hcycle.elim h
    exact ⟨_, by rw [build_eq hids hknown, if_neg hleft]⟩
  · rintro ⟨g, h⟩
    rw [h] at hanswer
    cases hanswer with
    | graph hids hknown hacyclic => exact ⟨hids, hknown, hacyclic⟩
  · rintro ⟨hids, hknown, hacyclic⟩
    exact ⟨_, by rw [build_eq hids hknown, if_pos ((length_taken_iff hids hknown).2 hacyclic)]⟩
  · have hwf := wellFormed_of_build hg
    rw [hg] at hanswer
    cases hanswer with
    | graph hids hknown hacyclic =>
      obtain ⟨edges, hwalk, hedges⟩ := get?_collectEdges hids hknown
      exact ⟨rfl, fun t ht => hwf.dependenciesOf_of_mem ht, hwf.order_perm,
        fun before id after hsplit d hd =>
          hwf.respects before id after hsplit d (hwf.names_iff.2 hd),
        List.filter_sublist, fun id => hwf.mem_roots_iff,
        fun d id => mem_dependentsOf_iff.trans hwf.names_iff,
        fun d => ⟨(List.filter_sublist).map _, nodup_dependentsIn hids d⟩,
        edges, hwalk, hedges, takeAll?_collected hids hedges⟩

/-- Two tasks that need a third, and one that needs both, declared in another order. -/
def diamond : List TaskDefinition :=
  [waiter "d" ["c", "b"], waiter "c" ["a"], waiter "b" ["a"], waiter "a" []]

/-- The diamond is a graph with one root, whose dependents stand in the order of declaration. -/
theorem diamond_is_valid : ∃ g, build diamond = .ok g ∧
    g.order = [⟨"a"⟩, ⟨"c"⟩, ⟨"b"⟩, ⟨"d"⟩] ∧ (g.dependentsOf ⟨"a"⟩).Nodup ∧
    g.dependentsOf ⟨"a"⟩ = [⟨"c"⟩, ⟨"b"⟩] ∧ ⟨"d"⟩ ∈ g.dependentsOf ⟨"b"⟩ ∧ ⟨"a"⟩ ∈ g.roots := by
  have hbuild : build diamond = .ok ⟨diamond, [⟨"a"⟩, ⟨"c"⟩, ⟨"b"⟩, ⟨"d"⟩]⟩ := rfl
  obtain ⟨-, -, -, -, -, hroots, hdependents, honce, -⟩ :=
    (validation_is_exact diamond).2.2.2.2.2.2 _ hbuild
  exact ⟨_, hbuild, rfl, (honce _).2, by decide, (hdependents _ _).2 (by decide),
    (hroots _).2 (by decide)⟩

end TaskGraph

end Taskflow
