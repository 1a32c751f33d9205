import Taskflow.Proofs.State.ClosedForm
import Taskflow.Proofs.State.Life
import Taskflow.Proofs.State.Publishing
set_option autoImplicit false

/-!
# How the state of a task grows

As long as a task tells its life and counts its retries upward, what was known of it after fewer
events is a part of what is known after more: its lines have only become more, it does not become
pending again, its retries have not become fewer, and its end and what blocks it stay.

## Main definitions

* `Lifecycle` — what a task can have told at any moment, from its registration on.
* `TaskState.Precedes` — what is known of a task has only become more.

## Main results

* `Lifecycle.precedes` — the states of a task after fewer and after more events.
-/

namespace Taskflow

open TaskChange SystemState
open Coordinator (stateAt)

namespace TaskChange

/-- The numbers of the retries that were announced. -/
def attempts (cs : List TaskChange) : List UInt32 := (cs.filterMap retry?).map (·.1)

/-- The attempts that are announced by more changes come after the first ones. -/
lemma attempts_append (cs more : List TaskChange) :
    attempts (cs ++ more) = attempts cs ++ attempts more := by
  simp [attempts]

end TaskChange

/-- What a task can have told at any moment: nothing, or its registration and a first part of its
life, in which the retries are counted upward. -/
def Lifecycle (cs : List TaskChange) : Prop :=
  cs = [] ∨ ∃ name rest, cs = .registered name :: rest ∧ Lived rest ∧
    (attempts rest).Pairwise (· < ·)

/-- What was told before follows the same rules. -/
lemma Lifecycle.of_append {cs more : List TaskChange} (h : Lifecycle (cs ++ more)) :
    Lifecycle cs := by
  rcases h with h | ⟨name, rest, heq, hlived, hattempts⟩
  · exact .inl (List.append_eq_nil_iff.1 h).1
  · cases cs with
    | nil => exact .inl rfl
    | cons c cs =>
      rw [List.cons_append] at heq
      obtain ⟨rfl, rfl⟩ := List.cons.inj heq
      rw [attempts_append] at hattempts
      exact .inr ⟨name, cs, rfl, hlived.of_append, (List.pairwise_append.1 hattempts).1⟩

/-- Nobody is registered a second time. -/
lemma Lived.registered_notMem {cs : List TaskChange} (h : Lived cs) (name : String) :
    .registered name ∉ cs := by
  have hbody : ∀ {body}, Underway body → .registered name ∉ body := by
    rintro _ ⟨time, rest, rfl, hrest⟩ hmem
    rcases List.mem_cons.1 hmem with hmem | hmem
    · cases hmem
    · exact nomatch hrest _ hmem
  rcases h with rfl | ⟨d, rfl⟩ | h | ⟨outcome, body, time, h, rfl⟩
  · simp
  · simp
  · exact hbody h
  · simpa using hbody h

namespace TaskState

/-- What is known of a task has only become more, from `u` to `v`. -/
structure Precedes (u v : TaskState) : Prop where
  lines : ∀ stream, (v.lines stream).toList =
    (u.lines stream).toList ++ (v.lines stream).iterFrom (u.lines stream).size
  silent : u.status = .pending → ∀ stream, (u.lines stream).toList = []
  of_pending : v.status = .pending → u.status = .pending
  attempt_le : u.retryAttempt ≤ v.retryAttempt
  blockedBy : ∀ d, u.blockedBy = some d → v.blockedBy = some d
  of_isTerminal : u.status.isTerminal = true → v = u

variable {id : TaskId} {name : String} {cs more : List TaskChange}

/-- What a task holds on a stream are the lines of all changes. -/
lemma toList_lines_ofChanges (stream : Stream) :
    ((ofChanges id name cs).lines stream).toList = cs.filterMap (line? stream) := by
  cases stream <;> exact OutputLines.toList_ofList _

/-- What a task holds on a stream is the buffer of the lines of all changes. -/
lemma lines_ofChanges (stream : Stream) :
    (ofChanges id name cs).lines stream = .ofList (cs.filterMap (line? stream)) := by
  cases stream <;> rfl

/-- The last retry that was announced, and none is number zero. -/
lemma retryAttempt_ofChanges :
    (ofChanges id name cs).retryAttempt = (attempts cs).getLast?.getD 0 := by
  rw [attempts, List.getLast?_map]
  rfl

/-- A task is pending as long as it has told nothing, or that it is blocked. -/
lemma status_ofChanges_eq_pending_iff (h : Lived cs) :
    (ofChanges id name cs).status = .pending ↔ cs = [] ∨ ∃ d, cs = [.blocked d] := by
  constructor
  · intro hpending
    rw [← foldl_apply_fresh id name h.registered_notMem] at hpending
    rcases h with h | h | h | ⟨outcome, h⟩
    · exact .inl h
    · exact .inr h
    · rw [h.status_eq] at hpending
      cases hpending
    · rw [h.status_eq] at hpending
      split at hpending <;> cases hpending
  · rintro (rfl | ⟨d, rfl⟩) <;> rfl

/-- If retries are counted upward, the last one is the largest. -/
lemma retryAttempt_le (h : (attempts (cs ++ more)).Pairwise (· < ·)) :
    (ofChanges id name cs).retryAttempt ≤ (ofChanges id name (cs ++ more)).retryAttempt := by
  rw [retryAttempt_ofChanges, retryAttempt_ofChanges, attempts_append, List.getLast?_append]
  rw [attempts_append] at h
  cases hmore : (attempts more).getLast? with
  | none => exact UInt32.le_refl _
  | some b =>
    cases hcs : (attempts cs).getLast? with
    | none => exact UInt32.zero_le
    | some a =>
      exact UInt32.le_of_lt ((List.pairwise_append.1 h).2.2 a (List.mem_of_getLast? hcs) b
        (List.mem_of_getLast? hmore))

/-- **What is known of a task only becomes more** while it lives and counts its retries upward. -/
lemma precedes_ofChanges (hlived : Lived (cs ++ more))
    (hattempts : (attempts (cs ++ more)).Pairwise (· < ·)) :
    (ofChanges id name cs).Precedes (ofChanges id name (cs ++ more)) where
  lines := fun stream => by
    rw [toList_lines_ofChanges, toList_lines_ofChanges, lines_ofChanges, lines_ofChanges,
      OutputLines.iterFrom_ofList, OutputLines.size_ofList, List.filterMap_append, List.drop_left]
  silent := fun hpending stream => by
    rw [toList_lines_ofChanges]
    rcases (status_ofChanges_eq_pending_iff hlived.of_append).1 hpending with rfl | ⟨d, rfl⟩ <;> rfl
  of_pending := fun hpending => by
    rw [status_ofChanges_eq_pending_iff hlived] at hpending
    rw [status_ofChanges_eq_pending_iff hlived.of_append]
    rcases hpending with h | ⟨d, h⟩
    · exact .inl (List.append_eq_nil_iff.1 h).1
    · exact (List.append_eq_singleton_iff.1 h).imp (·.1) fun h => ⟨d, h.1⟩
  attempt_le := retryAttempt_le hattempts
  blockedBy := fun d hd => by
    change (cs ++ more).findSome? blocker? = some d
    rw [List.findSome?_append, show cs.findSome? blocker? = some d from hd]
    rfl
  of_isTerminal := fun hend => by
    rw [← foldl_apply_fresh id name hlived.of_append.registered_notMem] at hend
    obtain ⟨outcome, hcompleted⟩ := hlived.of_append.completed_of_isTerminal hend
    rw [hlived.eq_nil_of_completed hcompleted, List.append_nil]

end TaskState

/-! ### First parts of a list of events -/

/-- What is known of a task that tells its life is read off what it has told. -/
lemma Lived.get?_fold {events : List TaskEvent} {id : TaskId} {name : String}
    {cs : List TaskChange} (hlived : Lived cs) (h : changesOf id events = .registered name :: cs) :
    (empty.fold events).get? id = some (.ofChanges id name cs) := by
  rw [get?_fold_empty, registration?_eq_some_iff.2 ⟨[], h, hlived.registered_notMem⟩]
  rfl

/-- **What is known of a task after fewer events** is known after more, and has only become more; if
nothing was known, it is as if the task had just been registered. -/
theorem Lifecycle.precedes {events : List TaskEvent} {id : TaskId}
    (h : Lifecycle (changesOf id events)) {n k : Nat} (hnk : n ≤ k) :
    (∀ u, (stateAt events n).get? id = some u →
      ∃ v, (stateAt events k).get? id = some v ∧ u.Precedes v) ∧
    ∀ v, (stateAt events k).get? id = some v →
      ∃ name, (TaskState.fresh id name).Precedes v := by
  -- the events up to `k` are those up to `n` and some more
  obtain ⟨more, hmore⟩ : events.take n <+: events.take k :=
    List.take_prefix_take_left hnk
  have hk : Lifecycle (changesOf id (events.take k)) := by
    rw [← List.take_append_drop k events, changesOf_append] at h
    exact h.of_append
  rw [stateAt, stateAt]
  rw [← hmore, changesOf_append] at hk
  rcases hk with hk | ⟨name, rest, heq, hlived, hattempts⟩
  · have hnone : ∀ l, changesOf id l = [] → (empty.fold l).get? id = none := fun l hl => by
      rw [get?_fold_empty, hl]
      rfl
    rw [hnone _ (List.append_eq_nil_iff.1 hk).1, ← hmore,
      hnone _ ((changesOf_append _ _ _).trans hk)]
    exact ⟨fun u hu => (by cases hu), fun v hv => (by cases hv)⟩
  · have hget : (empty.fold (events.take k)).get? id = some (.ofChanges id name rest) :=
      hlived.get?_fold (by rw [← hmore, changesOf_append, heq])
    rw [hget]
    refine ⟨fun u hu => ⟨_, rfl, ?_⟩, ?_⟩
    · cases hn : changesOf id (events.take n) with
      | nil =>
        rw [get?_fold_empty, hn] at hu
        cases hu
      | cons c cs =>
        rw [hn, List.cons_append] at heq
        obtain ⟨rfl, rfl⟩ := List.cons.inj heq
        rw [Lived.get?_fold hlived.of_append hn] at hu
        cases hu
        exact TaskState.precedes_ofChanges hlived hattempts
    · rintro v ⟨⟩
      exact ⟨name, @TaskState.precedes_ofChanges _ _ [] _ hlived hattempts⟩

end Taskflow
