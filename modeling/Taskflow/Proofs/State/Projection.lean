import Mathlib.Data.List.Nodup
import Mathlib.Data.List.Perm.Subperm
import Taskflow.State.Basic
set_option autoImplicit false

/-!
# The state of one task

The state of a task after a list of events depends on the events of that task alone, and a state
that was folded from events has one entry for each task. Together they reduce a question about a
whole state to questions about the changes of single tasks.

## Main definitions

* `Table.mapValues` — every value of a table is replaced by its image.
* `TaskState.learn?` — what a change does to a task that may be unknown.
* `SystemState.Keyed` — there is one entry for each task, under its own identifier.

## Main results

* `SystemState.get?_fold` — the state of one task after a list of events.
* `SystemState.Keyed.count_le` — a bound on the number of tasks with a status.
-/

namespace Taskflow

/-! ### Tables with distinct keys -/

namespace Table

variable {κ α : Type} [DecidableEq κ]

/-- Inserting adds a new key behind the others and leaves the keys alone otherwise. -/
lemma keys_insert (t : Table κ α) (k : κ) (a : α) :
    (t.insert k a).keys = if k ∈ t.keys then t.keys else t.keys ++ [k] := by
  obtain ⟨l⟩ := t
  change (insertInto k a l).map Prod.fst =
    if k ∈ l.map Prod.fst then l.map Prod.fst else l.map Prod.fst ++ [k]
  induction l with
  | nil => simp [insertInto]
  | cons p rest ih =>
    obtain ⟨k', a'⟩ := p
    by_cases h : k' = k
    · subst h; simp [insertInto]
    · rw [insertInto, if_neg h, List.map_cons, ih]
      by_cases hk : k ∈ rest.map Prod.fst
      · have hk' : k ∈ ((k', a') :: rest).map Prod.fst := List.mem_cons_of_mem _ hk
        rw [if_pos hk, if_pos hk', List.map_cons]
      · have hk' : k ∉ ((k', a') :: rest).map Prod.fst := by
          rw [List.map_cons, List.mem_cons, not_or]
          exact ⟨Ne.symm h, hk⟩
        rw [if_neg hk, if_neg hk', List.map_cons, List.cons_append]

/-- A key has a value exactly if it is among the keys. -/
lemma isSome_get?_iff (t : Table κ α) (k : κ) : (t.get? k).isSome ↔ k ∈ t.keys := by
  obtain ⟨l⟩ := t
  simp only [get?, keys]
  induction l with
  | nil => simp [lookup]
  | cons p rest ih =>
    obtain ⟨k', a'⟩ := p
    by_cases h : k' = k
    · subst h; simp [lookup]
    · simp [lookup, h, ih, Ne.symm h]

/-- Changing the value of a key leaves the keys alone. -/
@[simp] lemma keys_modify (t : Table κ α) (k : κ) (f : α → α) : (t.modify k f).keys = t.keys := by
  unfold modify
  split
  next a h => rw [keys_insert, if_pos ((isSome_get?_iff t k).1 (by rw [h]; rfl))]
  next => rfl

/-- With distinct keys, every entry is found under its key. -/
lemma get?_of_mem_entries {t : Table κ α} (hk : t.keys.Nodup) {k : κ} {a : α}
    (h : (k, a) ∈ t.entries) : t.get? k = some a := by
  obtain ⟨l⟩ := t
  simp only [get?, keys] at *
  induction l with
  | nil => cases h
  | cons p rest ih =>
    obtain ⟨hp, hrest⟩ := List.nodup_cons.1 hk
    rcases List.mem_cons.1 h with rfl | h
    · simp [lookup]
    · have hne : p.1 ≠ k := by
        rintro rfl
        exact hp (List.mem_map.2 ⟨_, h, rfl⟩)
      rw [lookup, if_neg hne]
      exact ih hrest h

/-- What is found under a key is an entry. -/
lemma mem_entries_of_get? {t : Table κ α} {k : κ} {a : α} (h : t.get? k = some a) :
    (k, a) ∈ t.entries := by
  obtain ⟨l⟩ := t
  simp only [get?] at *
  induction l with
  | nil => cases h
  | cons p rest ih =>
    rw [lookup] at h
    split at h
    next hp => cases h; exact hp ▸ List.mem_cons_self
    next => exact List.mem_cons_of_mem _ (ih h)

/-- With distinct keys, a table is known by its keys and their values. -/
lemma ext_get? {s t : Table κ α} (hs : s.keys.Nodup) (hk : s.keys = t.keys)
    (h : ∀ k, s.get? k = t.get? k) : s = t := by
  have hentries : ∀ u : Table κ α, u.keys.Nodup →
      u.entries.map some = u.keys.map fun k => (u.get? k).map fun a => (k, a) := by
    intro u hu
    rw [keys, List.map_map]
    refine List.map_congr_left fun p hp => ?_
    rw [Function.comp_apply, get?_of_mem_entries hu (k := p.1) (a := p.2) hp]
    rfl
  have heq : s.entries.map some = t.entries.map some := by
    rw [hentries s hs, hentries t (hk ▸ hs), hk]
    exact List.map_congr_left fun k _ => by rw [h k]
  obtain ⟨s⟩ := s
  obtain ⟨t⟩ := t
  exact congrArg _ (List.map_injective_iff.2 (fun _ _ => Option.some.inj) heq)

/-- Every value is replaced by its image, in its place. -/
def mapValues {β : Type} (f : α → β) (t : Table κ α) : Table κ β :=
  ⟨t.entries.map fun p => (p.1, f p.2)⟩

section MapValues

variable {β : Type} (f : α → β)

omit [DecidableEq κ] in
/-- A change of the values leaves the keys. -/
lemma keys_mapValues (t : Table κ α) : (t.mapValues f).keys = t.keys := by
  simp [mapValues, keys, Function.comp_def]

/-- A value is found with its change. -/
lemma get?_mapValues (t : Table κ α) (k : κ) : (t.mapValues f).get? k = (t.get? k).map f := by
  obtain ⟨l⟩ := t
  simp only [get?, mapValues]
  induction l with
  | nil => rfl
  | cons p rest ih =>
    obtain ⟨k', a⟩ := p
    by_cases h : k' = k
    · simp [lookup, h]
    · simpa [lookup, h] using ih

/-- A key is inserted with its changed value. -/
lemma mapValues_insert (t : Table κ α) (k : κ) (a : α) :
    (t.insert k a).mapValues f = (t.mapValues f).insert k (f a) := by
  obtain ⟨l⟩ := t
  simp only [insert, mapValues]
  congr 1
  induction l with
  | nil => rfl
  | cons p rest ih =>
    obtain ⟨k', a'⟩ := p
    by_cases h : k' = k
    · simp [insertInto, h]
    · simpa [insertInto, h] using ih

/-- Of two changes that fit together, the one of a single value may come before that of all. -/
lemma mapValues_modify (t : Table κ α) (k : κ) {g : α → α} {g' : β → β}
    (h : ∀ a, f (g a) = g' (f a)) :
    (t.modify k g).mapValues f = (t.mapValues f).modify k g' := by
  unfold modify
  rw [get?_mapValues]
  cases t.get? k with
  | none => rfl
  | some a => exact (mapValues_insert f t k (g a)).trans (by rw [h]; rfl)

end MapValues

end Table

/-! ### One task -/

namespace TaskState

/-- What a change does to a task that may be unknown: registration makes it known. -/
def learn? (id : TaskId) (s : Option TaskState) : TaskChange → Option TaskState
  | .registered name => some (.fresh id name)
  | change => s.map (·.apply change)

/-- No change alters the identifier. -/
@[simp] lemma id_apply (s : TaskState) (c : TaskChange) : (s.apply c).id = s.id := by
  cases c with
  | output stream line => cases stream <;> rfl
  | completed time outcome => cases outcome <;> rfl
  | _ => rfl

/-- A known task stays known, and its changes are applied one by one. -/
lemma foldl_learn?_some (changes : List TaskChange) (s : TaskState) :
    changes.foldl (learn? s.id) (some s) = some (changes.foldl apply s) := by
  induction changes generalizing s with
  | nil => rfl
  | cons c rest ih =>
    have hc : learn? s.id (some s) c = some (s.apply c) := by cases c <;> rfl
    rw [List.foldl_cons, List.foldl_cons, hc, ← ih, id_apply]

end TaskState

namespace SystemState

/-- The changes of a task in a list of events. -/
def changesOf (id : TaskId) (events : List TaskEvent) : List TaskChange :=
  (events.filter fun e => decide (e.task = id)).map (·.change)

/-- More changes of a task come after the first ones. -/
lemma changesOf_append (id : TaskId) (events more : List TaskEvent) :
    changesOf id (events ++ more) = changesOf id events ++ changesOf id more := by
  rw [changesOf, List.filter_append, List.map_append]
  rfl

/-- An event of a task changes what is known of the task. -/
lemma get?_apply_self (s : SystemState) (e : TaskEvent) :
    (s.apply e).get? e.task = TaskState.learn? e.task (s.get? e.task) e.change := by
  obtain ⟨task, change⟩ := e
  rw [get?_apply, if_pos rfl]
  cases change <;> rfl

/-- **The state of a task depends on the events of that task alone.** -/
theorem get?_fold (events : List TaskEvent) (s : SystemState) (id : TaskId) :
    (s.fold events).get? id = (changesOf id events).foldl (TaskState.learn? id) (s.get? id) := by
  induction events generalizing s with
  | nil => rfl
  | cons e rest ih =>
    rw [fold_cons, ih]
    by_cases h : e.task = id
    · subst h
      simp [changesOf, get?_apply_self]
    · rw [get?_apply, if_neg h]
      simp [changesOf, h]

/-- Events of other tasks leave the state of a task alone. -/
lemma get?_fold_of_forall_ne {events : List TaskEvent} {id : TaskId}
    (h : ∀ e ∈ events, e.task ≠ id) (s : SystemState) : (s.fold events).get? id = s.get? id := by
  have hnone : changesOf id events = [] := by
    rw [changesOf, List.map_eq_nil_iff, List.filter_eq_nil_iff]
    exact fun e he => by simpa using h e he
  rw [get?_fold, hnone, List.foldl_nil]

/-- While tasks are only registered, nothing else is known of them. -/
lemma eq_fresh_of_registered {es : List TaskEvent}
    (hes : ∀ e ∈ es, ∃ name, e.change = .registered name) {id : TaskId} {t : TaskState}
    (h : (empty.fold es).get? id = some t) : ∃ name, t = .fresh id name := by
  suffices ∀ s : SystemState, (∀ u, s.get? id = some u → ∃ name, u = .fresh id name) →
      ∀ u, (s.fold es).get? id = some u → ∃ name, u = .fresh id name from
    this empty (fun u hu => by cases hu) t h
  clear h
  induction es with
  | nil => exact fun s hs => hs
  | cons e rest ih =>
    intro s hs
    refine ih (fun x hx => hes x (List.mem_cons_of_mem _ hx)) (s.apply e) fun u hu => ?_
    obtain ⟨name, hname⟩ := hes e List.mem_cons_self
    rw [get?_apply, hname] at hu
    split at hu
    · cases hu; exact ⟨name, rfl⟩
    · exact hs u hu

/-- Registrations leave every task pending. -/
lemma pending_of_registered {es : List TaskEvent}
    (hes : ∀ e ∈ es, ∃ name, e.change = .registered name) {id : TaskId} {t : TaskState}
    (h : (empty.fold es).get? id = some t) : t.status = .pending := by
  obtain ⟨name, rfl⟩ := eq_fresh_of_registered hes h
  rfl

/-! ### All tasks -/

/-- There is one entry for each task, and it stands under the identifier of the task. -/
structure Keyed (s : SystemState) : Prop where
  nodup : s.tasks.keys.Nodup
  id_eq : ∀ id t, s.get? id = some t → t.id = id

/-- Without tasks a state is keyed. -/
lemma keyed_empty : empty.Keyed := ⟨List.nodup_nil, fun _ _ h => by cases h⟩

/-- Events do not lead out of the states with one entry for each task. -/
lemma Keyed.apply {s : SystemState} (h : s.Keyed) (e : TaskEvent) : (s.apply e).Keyed := by
  obtain ⟨id, change⟩ := e
  refine ⟨?_, fun k t ht => ?_⟩
  · cases change with
    | registered name =>
      change ((s.tasks.insert _ _).keys).Nodup
      rw [Table.keys_insert]
      split
      next => exact h.nodup
      next hid =>
        exact List.nodup_append.2 ⟨h.nodup, List.nodup_singleton _, fun a ha b hb e =>
          hid (List.mem_singleton.1 hb ▸ e ▸ ha)⟩
    | _ =>
      change ((s.tasks.modify _ _).keys).Nodup
      rw [Table.keys_modify]
      exact h.nodup
  · rw [get?_apply] at ht
    split at ht
    · split at ht
      · cases ht; rfl
      · obtain ⟨u, hu, rfl⟩ := Option.map_eq_some_iff.1 ht
        rw [TaskState.id_apply, h.id_eq k u hu]
    · exact h.id_eq k t ht

/-- A state that is folded from events has one entry for each task. -/
lemma Keyed.fold {s : SystemState} (h : s.Keyed) (events : List TaskEvent) :
    (s.fold events).Keyed := by
  induction events generalizing s with
  | nil => exact h
  | cons e rest ih => exact ih (h.apply e)

/-- The number of tasks with a status is at most the length of any list that names them all. -/
lemma Keyed.count_le {s : SystemState} (h : s.Keyed) {status : TaskStatus} {ids : List TaskId}
    (hids : ∀ id t, s.get? id = some t → t.status = status → id ∈ ids) :
    s.count status ≤ ids.length := by
  have hcount : s.count status =
      ((s.tasks.entries.filter fun p => decide (p.2.status = status)).map Prod.fst).length := by
    rw [count, Table.values, List.countP_map, List.countP_eq_length_filter, List.length_map]
    rfl
  rw [hcount]
  refine (List.subperm_of_subset (h.nodup.sublist ((List.filter_sublist).map _)) ?_).length_le
  intro id hid
  obtain ⟨p, hp, rfl⟩ := List.mem_map.1 hid
  obtain ⟨hmem, hstatus⟩ := List.mem_filter.1 hp
  exact hids p.1 p.2 (Table.get?_of_mem_entries h.nodup hmem) (of_decide_eq_true hstatus)

/-- While tasks are only registered, none is running. -/
lemma count_running_of_registered {es : List TaskEvent}
    (hes : ∀ e ∈ es, ∃ name, e.change = .registered name) :
    (empty.fold es).count .running = 0 := by
  have hle : (empty.fold es).count .running ≤ ([] : List TaskId).length := by
    refine (keyed_empty.fold es).count_le fun id t hid hrunning => ?_
    exact absurd (pending_of_registered hes hid) (by simp [hrunning])
  exact Nat.eq_zero_of_le_zero hle

end SystemState

end Taskflow
