import Taskflow.Proofs.State.Projection
set_option autoImplicit false

/-!
# Lists and counts of tasks

The views of a state list identifiers in ascending order and count tasks. With one entry for each
task, a list names exactly the tasks that it is about, each one once, and the counts of kinds of
tasks that exclude one another add up.

## Main definitions

* `TaskId.Ascending` — a list of identifiers is in strictly ascending order.

## Main results

* `SystemState.Keyed.mem_sort_iff`, `SystemState.Keyed.ascending_sort` — what such a list names, and
  in which order.
* `SystemState.Keyed.size_eq` — the counts of four kinds of tasks make up the number of all tasks.
-/

namespace Taskflow

namespace TaskId

/-! ### Ascending identifiers -/

/-- Each identifier is less than all those behind it; so none of them is repeated. -/
def Ascending (ids : List TaskId) : Prop := ids.Pairwise fun a b => a.text < b.text

/-- Sorting keeps what is in a list. -/
@[simp] lemma mem_sort {id : TaskId} {ids : List TaskId} : id ∈ sort ids ↔ id ∈ ids :=
  List.mem_mergeSort

/-- Sorting leaves the length. -/
@[simp] lemma length_sort (ids : List TaskId) : (sort ids).length = ids.length :=
  List.length_mergeSort ids

/-- **Sorting identifiers that are not repeated puts them in ascending order.** -/
theorem ascending_sort {ids : List TaskId} (h : ids.Nodup) : Ascending (sort ids) := by
  have htrans : ∀ a b c : TaskId, a.le b = true → b.le c = true → a.le c = true := by
    simp only [le, decide_eq_true_eq]
    exact fun a b c => String.le_trans
  have htotal : ∀ a b : TaskId, (a.le b || b.le a) = true := by
    simp only [le, Bool.or_eq_true, decide_eq_true_eq]
    exact fun a b => String.le_total a.text b.text
  have hnodup : (sort ids).Nodup := (List.mergeSort_perm ids le).nodup_iff.2 h
  refine (List.pairwise_mergeSort htrans htotal ids).imp₂ (fun a b hle hne => ?_) hnodup
  refine String.not_le.1 fun hge => hne ?_
  exact congrArg TaskId.mk (String.le_antisymm (of_decide_eq_true hle) hge)

end TaskId

namespace SystemState

variable {s : SystemState} {f : TaskState → Bool}

/-! ### Lists of tasks -/

/-- With one entry for each task, a task is among the entries exactly if it is found. -/
lemma Keyed.mem_values_iff (h : s.Keyed) {u : TaskState} :
    u ∈ s.tasks.values ↔ s.get? u.id = some u := by
  rw [Table.values, List.mem_map]
  constructor
  · rintro ⟨⟨id, v⟩, hmem, rfl⟩
    have hget : s.get? id = some v := Table.get?_of_mem_entries h.nodup hmem
    rw [h.id_eq id v hget, hget]
  · intro hu
    exact ⟨(u.id, u), Table.mem_entries_of_get? hu, rfl⟩

/-- The identifiers of the tasks of a state are its keys. -/
lemma Keyed.ids_eq (h : s.Keyed) : s.tasks.values.map (·.id) = s.tasks.keys := by
  rw [Table.values, List.map_map]
  refine List.map_congr_left fun p hp => ?_
  exact h.id_eq p.1 p.2 (Table.get?_of_mem_entries h.nodup hp)

/-- **A list of the tasks of some kind names exactly those.** -/
theorem Keyed.mem_sort_iff (h : s.Keyed) {id : TaskId} :
    id ∈ TaskId.sort ((s.tasks.values.filter f).map (·.id)) ↔
      ∃ u, s.get? id = some u ∧ f u = true := by
  rw [TaskId.mem_sort, List.mem_map]
  constructor
  · rintro ⟨u, hu, rfl⟩
    obtain ⟨hmem, hf⟩ := List.mem_filter.1 hu
    exact ⟨u, h.mem_values_iff.1 hmem, hf⟩
  · rintro ⟨u, hu, hf⟩
    obtain rfl := h.id_eq id u hu
    exact ⟨u, List.mem_filter.2 ⟨h.mem_values_iff.2 hu, hf⟩, rfl⟩

/-- **A list of the tasks of some kind is in ascending order.** -/
theorem Keyed.ascending_sort (h : s.Keyed) (f : TaskState → Bool) :
    TaskId.Ascending (TaskId.sort ((s.tasks.values.filter f).map (·.id))) := by
  refine TaskId.ascending_sort ((List.filter_sublist.map _).nodup ?_)
  rw [h.ids_eq]
  exact h.nodup

/-- A task is counted under its status. -/
lemma Keyed.mem_idsWithStatus_iff (h : s.Keyed) {id : TaskId} {status : TaskStatus} :
    id ∈ s.idsWithStatus status ↔ ∃ u, s.get? id = some u ∧ u.status = status :=
  h.mem_sort_iff.trans (exists_congr fun _ => and_congr_right fun _ => decide_eq_true_iff)

/-- A task is counted as blocked if it has a blocker. -/
lemma Keyed.mem_blockedIds_iff (h : s.Keyed) {id : TaskId} :
    id ∈ s.blockedIds ↔ ∃ u, s.get? id = some u ∧ u.blockedBy.isSome = true := h.mem_sort_iff

/-- The list of the tasks with a status is as long as their count says. -/
lemma length_idsWithStatus (s : SystemState) (status : TaskStatus) :
    (s.idsWithStatus status).length = s.count status := by
  rw [idsWithStatus, TaskId.length_sort, List.length_map, count, List.countP_eq_length_filter]

/-- The list of the blocked tasks is as long as there are blocked tasks. -/
lemma length_blockedIds (s : SystemState) :
    s.blockedIds.length = s.tasks.values.countP (·.isBlocked) := by
  rw [blockedIds, TaskId.length_sort, List.length_map, List.countP_eq_length_filter]

/-! ### Counts -/

/-- All tasks have a status if so many have it as there are tasks. -/
lemma Keyed.count_eq_size_iff (h : s.Keyed) {status : TaskStatus} :
    s.count status = s.size ↔ ∀ id u, s.get? id = some u → u.status = status := by
  have hsize : s.size = s.tasks.values.length := (List.length_map _).symm
  rw [hsize, count, List.countP_eq_length]
  constructor
  · intro hall id u hu
    obtain rfl := h.id_eq id u hu
    exact of_decide_eq_true (hall u (h.mem_values_iff.2 hu))
  · exact fun hall u hu => decide_eq_true (hall u.id u (h.mem_values_iff.1 hu))

/-- No task has a status if none is counted. -/
lemma Keyed.count_eq_zero_iff (h : s.Keyed) {status : TaskStatus} :
    s.count status = 0 ↔ ∀ id u, s.get? id = some u → u.status ≠ status := by
  rw [count, List.countP_eq_zero]
  constructor
  · intro hall id u hu hstatus
    obtain rfl := h.id_eq id u hu
    exact hall u (h.mem_values_iff.2 hu) (decide_eq_true hstatus)
  · exact fun hall u hu hstatus =>
      hall u.id u (h.mem_values_iff.1 hu) (of_decide_eq_true hstatus)

/-- If each entry of a list is of exactly one of four kinds, the counts of the kinds make up its
length. -/
lemma countP_add_countP {α : Type} {a b c d : α → Bool} {l : List α}
    (h : ∀ x ∈ l, (a x).toNat + (b x).toNat + (c x).toNat + (d x).toNat = 1) :
    l.countP a + l.countP b + l.countP c + l.countP d = l.length := by
  induction l with
  | nil => rfl
  | cons x rest ih =>
    have hx := h x List.mem_cons_self
    have hrest := ih fun y hy => h y (List.mem_cons_of_mem _ hy)
    have hcount : ∀ f : α → Bool, (x :: rest).countP f = rest.countP f + (f x).toNat := by
      intro f
      rw [List.countP_cons]
      cases f x <;> rfl
    rw [hcount a, hcount b, hcount c, hcount d, List.length_cons]
    omega

/-- The number of tasks that are pending although no failed dependency keeps them from starting. -/
def idleCount (s : SystemState) : Nat :=
  s.tasks.values.countP fun u => decide (u.status = .pending) && !u.isBlocked

/-- **The tasks that succeeded, failed, are blocked, and are pending for another reason make up all
tasks**, if none is running and only pending ones are blocked. -/
theorem Keyed.size_eq (h : s.Keyed) (hrunning : ∀ id u, s.get? id = some u → u.status ≠ .running)
    (hblocked : ∀ id u, s.get? id = some u → u.isBlocked = true → u.status = .pending) :
    s.count .succeeded + s.count .failed + s.blockedIds.length + s.idleCount = s.size := by
  rw [length_blockedIds, count, count, idleCount]
  refine (countP_add_countP fun u hu => ?_).trans (List.length_map _)
  have hget := h.mem_values_iff.1 hu
  have hnot := hrunning u.id u hget
  have himp := hblocked u.id u hget
  cases hstatus : u.status with
  | running => exact absurd hstatus hnot
  | pending => cases u.isBlocked <;> rfl
  | succeeded | failed =>
    cases hb : u.isBlocked with
    | true => rw [hstatus] at himp; cases himp hb
    | false => rfl

end SystemState

end Taskflow
