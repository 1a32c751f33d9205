import Taskflow.Proofs.Graph.Validation
import Taskflow.Proofs.TaskFile
set_option autoImplicit false

/-!
# The checks of a task file

A task file is accepted if it breaks no rule, and otherwise the first rule that it breaks is told:
the rules about the file come first, then the tasks one after the other, and within a task its
identifier, its command, and its dependencies one after the other. The tasks of an accepted file
are what its entries say, so the graph that they make has no identifier twice, and no task on a
cycle is alone on it.

## Main definitions

* `scan` — the first element of a list that is at fault, given the keys of those before it.
* `TaskEntry.IsSound`, `TaskFile.IsSound` — entries and files that break no rule.
* `TaskEntry.Fault`, `TaskFile.FirstFault` — the first rule that is broken, with its error.
* `TaskEntry.Describes` — a task is what its entry says.

## Main results

* `scan_eq_some_iff`, `scan_eq_none_iff` — what a search for the first fault finds.
* `TaskFile.violation?_eq_some_iff`, `TaskFile.violation?_eq_none_iff` — the error of a file, and
  when there is none.
* `TaskFile.describes_task` — the task of a sound entry.
* `TaskGraph.exists_two_of_build` — a cycle that is reported has two tasks.
* `TaskFile.checks_are_exact` — which file gets which answer, and what its tasks are.

## Design

The two loops of the checks are one search (`scan`), which knows the keys of what it has passed.
An element passes if it keeps the rules of its own and its key is new, so whatever list has no
fault has distinct keys.
-/

namespace Taskflow

/-! ### The first fault in a list -/

section Scan

variable {α β κ : Type} {key : α → κ} {check : List κ → α → Option β} {seen : List κ}
  {l : List α} {b : β}

/-- The fault of the first element that has one, given the keys that have been seen before it. -/
def scan (key : α → κ) (check : List κ → α → Option β) : List κ → List α → Option β
  | _, [] => none
  | seen, a :: rest => (check seen a).or (scan key check (key a :: seen) rest)

/-- What has no fault is passed over. -/
lemma scan_append (seen : List κ) (before after : List α) : scan key check seen (before ++ after) =
    (scan key check seen before).or
      (scan key check ((before.map key).reverse ++ seen) after) := by
  induction before generalizing seen with
  | nil => rfl
  | cons a before ih =>
    rw [List.cons_append, scan, scan, ih, Option.or_assoc, List.map_cons, List.reverse_cons,
      List.append_assoc, List.singleton_append]

/-- **The fault that is found** is that of an element with no fault before it. -/
lemma scan_eq_some_iff : scan key check seen l = some b ↔
    ∃ before a after, l = before ++ a :: after ∧ scan key check seen before = none ∧
      check ((before.map key).reverse ++ seen) a = some b := by
  constructor
  · intro h
    induction l generalizing seen with
    | nil => cases h
    | cons a rest ih =>
      rw [scan, Option.or_eq_some_iff] at h
      obtain h | ⟨hnone, h⟩ := h
      · exact ⟨[], a, rest, rfl, rfl, h⟩
      · obtain ⟨before, a', after, rfl, hbefore, ha'⟩ := ih h
        refine ⟨a :: before, a', after, rfl, ?_, by simpa using ha'⟩
        rw [scan, hnone, hbefore]
        rfl
  · rintro ⟨before, a, after, rfl, hbefore, ha⟩
    rw [scan_append, hbefore, scan, ha]
    rfl

/-- **There is no fault** in a list of elements that keep their own rules, if the other rule is that
no key comes twice. -/
lemma scan_eq_none_iff {P : α → Prop}
    (hcheck : ∀ seen a, check seen a = none ↔ P a ∧ key a ∉ seen) :
    scan key check seen l = none ↔
      (∀ a ∈ l, P a) ∧ (l.map key).Nodup ∧ ∀ a ∈ l, key a ∉ seen := by
  induction l generalizing seen with
  | nil => simp [scan]
  | cons a rest ih =>
    rw [scan, Option.or_eq_none_iff, hcheck, ih, List.map_cons, List.nodup_cons,
      List.forall_mem_cons, List.forall_mem_cons]
    have hnew : (∀ a' ∈ rest, key a' ∉ key a :: seen) ↔
        key a ∉ rest.map key ∧ ∀ a' ∈ rest, key a' ∉ seen := by
      simp only [List.mem_cons, List.mem_map, not_or, not_exists, not_and]
      exact ⟨fun h => ⟨fun a' ha' => (h a' ha').1, fun a' ha' => (h a' ha').2⟩,
        fun h a' ha' => ⟨h.1 a' ha', h.2 a' ha'⟩⟩
    rw [hnew]
    tauto

end Scan

/-! ### The rules -/

namespace TaskEntry

/-- An entry that breaks no rule of its own. -/
structure IsSound (e : TaskEntry) : Prop where
  id_ne : e.id ≠ ""
  command_ne : e.command ≠ ""
  not_own : e.id ∉ e.dependsOn
  nodup : e.dependsOn.Nodup

/-- The first dependency that breaks a rule, with the message. -/
inductive DependencyFault (e : TaskEntry) : String → Prop
  /-- the task itself -/
  | own {earlier later : List String} (h : e.dependsOn = earlier ++ e.id :: later)
    (hown : e.id ∉ earlier) (hnodup : earlier.Nodup) :
    DependencyFault e ("task '" ++ e.id ++ "' cannot depend on itself")
  /-- one that has been named before -/
  | repeated {earlier later : List String} {d : String} (h : e.dependsOn = earlier ++ d :: later)
    (hown : e.id ∉ earlier) (hnodup : earlier.Nodup) (hd : d ≠ e.id) (hmem : d ∈ earlier) :
    DependencyFault e ("task '" ++ e.id ++ "' has duplicate dependency '" ++ d ++ "'")

/-- The first rule that an entry breaks, given the identifiers before it. -/
inductive Fault (e : TaskEntry) (seen : List String) : TaskFileError → Prop
  /-- no identifier -/
  | id (h : e.id = "") : Fault e seen (.missing "id")
  /-- or else no command -/
  | command (hid : e.id ≠ "") (h : e.command = "") : Fault e seen (.missing (e.id ++ ".command"))
  /-- or else an identifier that has been given before -/
  | duplicate (hid : e.id ≠ "") (hcommand : e.command ≠ "") (h : e.id ∈ seen) :
    Fault e seen (.invalid ("duplicate task id: " ++ e.id))
  /-- or else a dependency -/
  | dependency (hid : e.id ≠ "") (hcommand : e.command ≠ "") (hnew : e.id ∉ seen)
    {message : String} (h : e.DependencyFault message) : Fault e seen (.invalid message)

end TaskEntry

namespace TaskFile

/-- A file that breaks no rule. -/
structure IsSound (f : TaskFile) : Prop where
  entries_ne : f.entries ≠ []
  concurrency_ne : f.concurrency ≠ some 0
  entries_sound : ∀ e ∈ f.entries, e.IsSound
  ids_nodup : (f.entries.map (·.id)).Nodup

/-- The first rule that a file breaks. -/
inductive FirstFault (f : TaskFile) : TaskFileError → Prop
  /-- no task -/
  | entries (h : f.entries = []) :
    FirstFault f (.invalid "task file must have at least one task")
  /-- or else no slot -/
  | concurrency (hentries : f.entries ≠ []) (h : f.concurrency = some 0) :
    FirstFault f (.invalid "concurrency cannot be zero")
  /-- or else the first task that breaks one -/
  | entry (hconcurrency : f.concurrency ≠ some 0) {before after : List TaskEntry} {e : TaskEntry}
    {error : TaskFileError} (h : f.entries = before ++ e :: after)
    (hbefore : ∀ u ∈ before, u.IsSound) (hids : (before.map (·.id)).Nodup)
    (hfault : e.Fault (before.map (·.id)) error) : FirstFault f error

end TaskFile

/-! ### The checks of an entry -/

namespace TaskEntry

variable {e : TaskEntry} {seen : List String} {message : String} {error : TaskFileError}

/-- What is wrong with a dependency, given those before it. -/
def dependencyCheck? (e : TaskEntry) (seen : List String) (d : String) : Option String :=
  if d = e.id then some ("task '" ++ e.id ++ "' cannot depend on itself")
  else if d ∈ seen then some ("task '" ++ e.id ++ "' has duplicate dependency '" ++ d ++ "'")
  else none

/-- Dependencies are scanned one after the other. -/
lemma dependencyViolation?_eq_scan (e : TaskEntry) (seen deps : List String) :
    e.dependencyViolation? seen deps = scan (fun d => d) e.dependencyCheck? seen deps := by
  induction deps generalizing seen with
  | nil => rfl
  | cons d deps ih =>
    rw [dependencyViolation?, scan, dependencyCheck?, ih]
    split_ifs <;> rfl

/-- A dependency is fine if it is not the task itself and was not named before. -/
lemma dependencyCheck?_eq_none_iff (seen : List String) (d : String) :
    e.dependencyCheck? seen d = none ↔ d ≠ e.id ∧ d ∉ seen := by
  rw [dependencyCheck?]
  split_ifs <;> simp [*]

/-- Dependencies that come once each, and are not the task itself. -/
lemma scan_dependencies_eq_none_iff {deps : List String} :
    scan (fun d => d) e.dependencyCheck? [] deps = none ↔ e.id ∉ deps ∧ deps.Nodup := by
  rw [scan_eq_none_iff dependencyCheck?_eq_none_iff, List.map_id']
  simp only [List.not_mem_nil, not_false_iff, implies_true, and_true]
  refine and_congr_left fun _ => ⟨fun h hmem => h e.id hmem rfl, fun h d hd => ?_⟩
  rintro rfl
  exact h hd

/-- Dependencies are fine if the task is not among them and none is named twice. -/
lemma dependencyViolation?_eq_none_iff :
    e.dependencyViolation? [] e.dependsOn = none ↔ e.id ∉ e.dependsOn ∧ e.dependsOn.Nodup := by
  rw [dependencyViolation?_eq_scan, scan_dependencies_eq_none_iff]

/-- The message about the dependencies of an entry is that of the first one at fault. -/
lemma dependencyViolation?_eq_some_iff :
    e.dependencyViolation? [] e.dependsOn = some message ↔ e.DependencyFault message := by
  rw [dependencyViolation?_eq_scan, scan_eq_some_iff]
  simp only [scan_dependencies_eq_none_iff, List.map_id', List.append_nil]
  constructor
  · rintro ⟨earlier, d, later, hsplit, ⟨hown, hnodup⟩, hcheck⟩
    rw [dependencyCheck?] at hcheck
    split_ifs at hcheck with hd hmem
    · cases hcheck
      exact .own (hd ▸ hsplit) hown hnodup
    · cases hcheck
      exact .repeated hsplit hown hnodup hd (List.mem_reverse.1 hmem)
  · intro h
    cases h with
    | own h hown hnodup =>
      exact ⟨_, _, _, h, ⟨hown, hnodup⟩, if_pos rfl⟩
    | repeated h hown hnodup hd hmem =>
      refine ⟨_, _, _, h, ⟨hown, hnodup⟩, ?_⟩
      rw [dependencyCheck?, if_neg hd, if_pos (List.mem_reverse.2 hmem)]

/-- It does not matter in which order the identifiers were given. -/
lemma fault_reverse_iff : e.Fault seen.reverse error ↔ e.Fault seen error := by
  constructor <;> intro h <;> cases h with
  | id h => exact .id h
  | command hid h => exact .command hid h
  | duplicate hid hcommand h => exact .duplicate hid hcommand (by simpa using h)
  | dependency hid hcommand hnew h => exact .dependency hid hcommand (by simpa using hnew) h

/-- What is wrong with an entry, given the identifiers before it. -/
def check? (seen : List String) (e : TaskEntry) : Option TaskFileError :=
  if e.id = "" then some (.missing "id")
  else if e.command = "" then some (.missing (e.id ++ ".command"))
  else if e.id ∈ seen then some (.invalid ("duplicate task id: " ++ e.id))
  else (e.dependencyViolation? [] e.dependsOn).map .invalid

/-- An entry is fine if it is sound and its identifier was not used before. -/
lemma check?_eq_none_iff (seen : List String) (e : TaskEntry) :
    check? seen e = none ↔ e.IsSound ∧ e.id ∉ seen := by
  rw [check?]
  split_ifs with hid hcommand hseen
  · exact iff_of_false (by simp) fun h => h.1.id_ne hid
  · exact iff_of_false (by simp) fun h => h.1.command_ne hcommand
  · exact iff_of_false (by simp) fun h => h.2 hseen
  · rw [Option.map_eq_none_iff, dependencyViolation?_eq_none_iff]
    exact ⟨fun h => ⟨⟨hid, hcommand, h.1, h.2⟩, hseen⟩, fun h => ⟨h.1.not_own, h.1.nodup⟩⟩

/-- The error about an entry tells the first rule that it breaks. -/
lemma check?_eq_some_iff : check? seen e = some error ↔ e.Fault seen error := by
  constructor
  · intro h
    rw [check?] at h
    split_ifs at h with hid hcommand hseen
    · cases h
      exact .id hid
    · cases h
      exact .command hid hcommand
    · cases h
      exact .duplicate hid hcommand hseen
    · obtain ⟨message, hmessage, rfl⟩ := Option.map_eq_some_iff.1 h
      exact .dependency hid hcommand hseen (dependencyViolation?_eq_some_iff.1 hmessage)
  · intro h
    rw [check?]
    cases h with
    | id h => rw [if_pos h]
    | command hid h => rw [if_neg hid, if_pos h]
    | duplicate hid hcommand h => rw [if_neg hid, if_neg hcommand, if_pos h]
    | dependency hid hcommand hnew h =>
      rw [if_neg hid, if_neg hcommand, if_neg hnew, dependencyViolation?_eq_some_iff.2 h]
      rfl

end TaskEntry

/-! ### The checks of a file -/

namespace TaskFile

variable {f : TaskFile} {error : TaskFileError}

/-- Entries are scanned one after the other. -/
lemma entryViolation?_eq_scan (seen : List String) (entries : List TaskEntry) :
    entryViolation? seen entries = scan (·.id) TaskEntry.check? seen entries := by
  induction entries generalizing seen with
  | nil => rfl
  | cons e entries ih =>
    rw [entryViolation?, scan, TaskEntry.check?, ih]
    split_ifs <;> try rfl
    cases e.dependencyViolation? [] e.dependsOn <;> rfl

/-- A file without an error is one that breaks no rule. -/
lemma violation?_eq_none_iff : f.violation? = none ↔ f.IsSound := by
  rw [violation?]
  split_ifs with hentries hconcurrency
  · exact iff_of_false (by simp) fun h => h.entries_ne (List.isEmpty_iff.1 hentries)
  · exact iff_of_false (by simp) fun h => h.concurrency_ne hconcurrency
  · rw [entryViolation?_eq_scan, scan_eq_none_iff TaskEntry.check?_eq_none_iff]
    rw [List.isEmpty_iff] at hentries
    exact ⟨fun h => ⟨hentries, hconcurrency, h.1, h.2.1⟩,
      fun h => ⟨h.entries_sound, h.ids_nodup, fun _ _ => List.not_mem_nil⟩⟩

/-- The error of the entries is that of the first one at fault. -/
lemma entryViolation?_eq_some_iff {entries : List TaskEntry} :
    entryViolation? [] entries = some error ↔
      ∃ before e after, entries = before ++ e :: after ∧ (∀ u ∈ before, u.IsSound) ∧
        (before.map (·.id)).Nodup ∧ e.Fault (before.map (·.id)) error := by
  rw [entryViolation?_eq_scan, scan_eq_some_iff]
  simp only [scan_eq_none_iff TaskEntry.check?_eq_none_iff, TaskEntry.check?_eq_some_iff,
    List.append_nil, TaskEntry.fault_reverse_iff]
  simp [and_assoc]

/-- The error of a file tells the first rule that it breaks. -/
lemma violation?_eq_some_iff : f.violation? = some error ↔ f.FirstFault error := by
  rw [violation?]
  constructor
  · intro h
    split_ifs at h with hentries hconcurrency
    · cases h
      exact .entries (List.isEmpty_iff.1 hentries)
    · cases h
      exact .concurrency (by simpa using hentries) hconcurrency
    · obtain ⟨before, e, after, hsplit, hbefore, hids, hfault⟩ := entryViolation?_eq_some_iff.1 h
      exact .entry hconcurrency hsplit hbefore hids hfault
  · intro h
    cases h with
    | entries h => rw [if_pos (List.isEmpty_iff.2 h)]
    | concurrency hentries h => rw [if_neg (by simpa using hentries), if_pos h]
    | entry hconcurrency hsplit hbefore hids hfault =>
      rw [if_neg (by simp [hsplit]), if_neg hconcurrency]
      exact entryViolation?_eq_some_iff.2 ⟨_, _, _, hsplit, hbefore, hids, hfault⟩

end TaskFile

/-! ### The tasks of a file -/

/-- A task is what its entry says, field by field. -/
structure TaskEntry.Describes (e : TaskEntry) (t : TaskDefinition) : Prop where
  id_eq : t.id = ⟨e.id⟩
  name_eq : t.name = e.name.getD e.id
  work_eq : t.work = .command
    { program := e.command, args := e.args, workingDir := e.workingDir,
      environment := e.environment }
  dependencies_eq : t.dependencies = e.dependsOn.map TaskId.mk
  retryPolicy_eq : t.retryPolicy = e.retry.map fun r => ⟨r.maxRetries, .ofMillis r.backoffMillis⟩
  logFile_eq : t.logFile = e.logFile

/-- Dependencies that are new are all appended. -/
lemma TaskDefinition.dependencies_withDependencies (t : TaskDefinition) {ids : List TaskId}
    (hids : ids.Nodup) (hnew : ∀ d ∈ ids, d ∉ t.dependencies) :
    (t.withDependencies ids).dependencies = t.dependencies ++ ids := by
  unfold withDependencies
  induction ids generalizing t with
  | nil => simp
  | cons d ids ih =>
    obtain ⟨hd, hids⟩ := List.nodup_cons.1 hids
    have hone : (t.dependsOn d).dependencies = t.dependencies ++ [d] := by
      rw [dependsOn, dif_neg (hnew d List.mem_cons_self)]
    rw [List.foldl_cons, ih _ hids, hone, List.append_assoc, List.singleton_append]
    intro d' hd' hmem
    rw [hone, List.mem_append, List.mem_singleton] at hmem
    obtain hmem | rfl := hmem
    · exact hnew d' (List.mem_cons_of_mem _ hd') hmem
    · exact hd hd'

namespace TaskFile

variable {f : TaskFile} {e : TaskEntry}

/-- The task of an entry is what the entry says, if no dependency is named twice. -/
lemma describes_task (h : e.dependsOn.Nodup) : e.Describes e.task := by
  have hdependencies := TaskDefinition.dependencies_withDependencies
    (TaskDefinition.ofCommand ⟨e.id⟩ e.spec) (h.map fun _ _ heq => congrArg TaskId.text heq)
    fun _ _ => List.not_mem_nil
  obtain ⟨dependencies, hnodup, heq⟩ := exists_withDependencies_eq
    (TaskDefinition.ofCommand ⟨e.id⟩ e.spec) (e.dependsOn.map TaskId.mk)
  rw [heq] at hdependencies
  obtain rfl : dependencies = e.dependsOn.map TaskId.mk := hdependencies
  constructor
  case work_eq => exact work_task e
  case retryPolicy_eq => exact retryPolicy_task e
  all_goals
    unfold TaskEntry.task
    rw [heq]
    cases e.name <;> cases e.retry <;> cases e.logFile <;> rfl

/-- The tasks of a sound file are what its entries say, in their order. -/
lemma IsSound.describes_tasks (h : f.IsSound) :
    List.Forall₂ TaskEntry.Describes f.entries f.tasks := by
  rw [tasks, List.forall₂_map_right_iff, List.forall₂_same]
  exact fun e he => describes_task (h.entries_sound e he).nodup

end TaskFile

/-! ### The graph of a file -/

namespace TaskGraph

variable {tasks : List TaskDefinition} {involved : List TaskId}

/-- **A cycle that is reported has two tasks**, if no task names itself: they need each other,
directly or through others, and both are reported. -/
lemma exists_two_of_build (hself : ∀ id, ¬ Names tasks id id)
    (h : build tasks = .error (.circularDependency involved)) :
    ∃ a b, a ≠ b ∧ a ∈ involved ∧ b ∈ involved ∧
      Relation.TransGen (Names tasks) a b ∧ Relation.TransGen (Names tasks) b a := by
  have hanswer := answered_build tasks
  rw [h] at hanswer
  cases hanswer with
  | circular hids hknown hcycle =>
    rw [build_eq hids hknown] at h
    split_ifs at h
    cases h
    have hreported : ∀ id, OnCycle tasks id →
        id ∈ (tasks.map (·.id)).filter fun id => decide (id ∉ taken tasks) := by
      intro id hid
      have hleads : LeadsToCycle tasks id := ⟨id, .refl, hid⟩
      refine List.mem_filter.2 ⟨hleads.declared, decide_eq_true fun htaken => ?_⟩
      exact (respects_taken hids).not_leadsToCycle htaken hleads
    obtain ⟨a, ha⟩ := hcycle
    obtain ⟨b, hab, hba⟩ := Relation.TransGen.head'_iff.1 ha
    obtain rfl | hba := Relation.reflTransGen_iff_eq_or_transGen.1 hba
    · exact (hself _ hab).elim
    · refine ⟨a, b, ?_, hreported a ha, hreported b (hba.tail hab), .single hab, hba⟩
      rintro rfl
      exact hself a hab

end TaskGraph

namespace TaskFile

variable {f : TaskFile}

/-- No task of a sound file names itself. -/
lemma IsSound.not_names_self (h : f.IsSound) (id : TaskId) :
    ¬ TaskGraph.Names f.tasks id id := by
  rintro ⟨t, ht, rfl, hmem⟩
  obtain ⟨e, he, rfl⟩ := List.mem_map.1 ht
  have hdescribes := describes_task (h.entries_sound e he).nodup
  rw [hdescribes.dependencies_eq, hdescribes.id_eq, List.mem_map] at hmem
  obtain ⟨d, hd, heq⟩ := hmem
  exact (h.entries_sound e he).not_own (TaskId.mk.inj heq ▸ hd)

/-- The identifiers of a sound file are those of distinct tasks. -/
lemma IsSound.nodup_ids (h : f.IsSound) : (f.tasks.map (·.id)).Nodup := by
  have hids : f.tasks.map (·.id) = (f.entries.map (·.id)).map TaskId.mk := by
    rw [tasks, List.map_map, List.map_map]
    refine List.map_congr_left fun e he => ?_
    exact (describes_task (h.entries_sound e he).nodup).id_eq
  rw [hids]
  exact h.ids_nodup.map fun _ _ heq => TaskId.mk.inj heq

/-- **The checks of a task file are exact, and its tasks keep what they found.** A file is accepted
if and only if it breaks no rule; an error is told if and only if it is that of the first rule that
the file breaks, which there is unless it breaks none. The tasks of an accepted file are what its
entries say, one for each and in their order. When the graph is built from them, no identifier is
found twice, and a cycle is only reported if two tasks lie on one.

**Proof sketch.** Both loops are scans, and a scan finds the first fault. What the entries say is
kept by the builders because no dependency comes twice. A cycle starts with one task that names
another, and no task of a sound file names itself. -/
theorem checks_are_exact (f : TaskFile) :
    (f.checked = .ok f ↔ f.IsSound) ∧ (∀ error, f.checked = .error error ↔ f.FirstFault error) ∧
    ((∃ error, f.FirstFault error) ↔ ¬ f.IsSound) ∧
    (∀ g, f.checked = .ok g →
      g = f ∧ List.Forall₂ TaskEntry.Describes f.entries f.tasks ∧
      (∀ id, TaskGraph.build f.tasks ≠ .error (.duplicateTask id)) ∧
      ∀ involved, TaskGraph.build f.tasks = .error (.circularDependency involved) →
        ∃ a b, a ≠ b ∧ a ∈ involved ∧ b ∈ involved ∧
          Relation.TransGen (TaskGraph.Names f.tasks) a b ∧
          Relation.TransGen (TaskGraph.Names f.tasks) b a) := by
  have hok : ∀ g, f.checked = .ok g ↔ g = f ∧ f.IsSound := by
    intro g
    rw [checked, ← violation?_eq_none_iff]
    cases f.violation? <;> simp [eq_comm]
  have herror : ∀ error, f.checked = .error error ↔ f.FirstFault error := by
    intro error
    rw [checked, ← violation?_eq_some_iff]
    cases f.violation? <;> simp
  refine ⟨by simp [hok], herror, ?_, fun g hg => ?_⟩
  · simp only [← violation?_eq_some_iff, ← violation?_eq_none_iff]
    exact Option.ne_none_iff_exists'.symm
  · obtain ⟨rfl, hsound⟩ := (hok g).1 hg
    refine ⟨rfl, hsound.describes_tasks, fun id h => ?_, fun involved h =>
      TaskGraph.exists_two_of_build hsound.not_names_self h⟩
    have hanswer := TaskGraph.answered_build g.tasks
    rw [h] at hanswer
    cases hanswer with
    | duplicate _ hids => exact hids hsound.nodup_ids

/-- Two tasks of a file that wait for each other. -/
def exchange : TaskFile :=
  { entries :=
      [{ id := "a", name := some "first", command := "echo", args := ["1"], dependsOn := ["b"] },
        { id := "b", command := "true", dependsOn := ["a"],
          retry := some { maxRetries := 2, backoffMillis := 5 } }] }

/-- The file is accepted, and the cycle is found when the graph is built. -/
theorem exchange_is_accepted : exchange.checked = .ok exchange ∧
    TaskGraph.build exchange.tasks = .error (.circularDependency [⟨"a"⟩, ⟨"b"⟩]) ∧
    ∃ a b, a ≠ b ∧ Relation.TransGen (TaskGraph.Names exchange.tasks) a b ∧
      Relation.TransGen (TaskGraph.Names exchange.tasks) b a := by
  have hchecked : exchange.checked = .ok exchange := rfl
  have hbuild : TaskGraph.build exchange.tasks =
      .error (.circularDependency [⟨"a"⟩, ⟨"b"⟩]) := rfl
  obtain ⟨-, -, -, hcircular⟩ := (checks_are_exact exchange).2.2.2 exchange hchecked
  obtain ⟨a, b, hne, -, -, hab, hba⟩ := hcircular _ hbuild
  exact ⟨hchecked, hbuild, a, b, hne, hab, hba⟩

end TaskFile

end Taskflow
