import Taskflow.Proofs.OutputLines
import Taskflow.Proofs.Run.Ceiling
import Taskflow.Proofs.Run.GraphPlan
set_option autoImplicit false

/-!
# What is known of a task

What a job has told makes up what a state knows of its task. The fields of a task know of one
another: whoever has a time of its start is not pending any more, whoever has an error has failed.
The reducer enforces none of this; it holds because of what jobs tell, and in which order. And the
attempts that a job counts are those that its task shows.

## Main definitions

* `TaskState.IsUnderway` — what is known of a task that has started and not come to its end.
* `TaskState.Consistent` — the fields of a task fit together.
* `Phase.Numbered` — what a phase says about the number of attempts that the task shows.

## Main results

* `Lived.consistent` — whatever part of its life a job has told, the fields fit together.
* `Machine.Reached.exists_standing` — in every reached machine, what is known of the task of a job.
* `Machine.Reached.consistent_of_prefix` — at every moment of a run the fields of all tasks fit.
-/

namespace Taskflow

open Relation TaskChange

/-! ### Fields that fit together -/

namespace TaskState

/-- The task has started and not come to its end. -/
structure IsUnderway (u : TaskState) : Prop where
  status_eq : u.status = .running
  isSome_startedAt : u.startedAt.isSome = true
  completedAt_eq : u.completedAt = none
  error_eq : u.error = none
  command_eq : u.command = none
  blockedBy_eq : u.blockedBy = none
  result_eq : u.result = none

/-- The fields of a task fit together. -/
structure Consistent (u : TaskState) : Prop where
  isSome_startedAt_iff : u.startedAt.isSome = true ↔ u.status ≠ .pending
  isSome_completedAt_iff : u.completedAt.isSome = true ↔ u.status = .succeeded ∨ u.status = .failed
  isSome_result_iff : u.result.isSome = true ↔ u.status = .succeeded
  isSome_error_iff : u.error.isSome = true ↔ u.status = .failed
  failed_of_command : u.command.isSome = true → u.status = .failed
  silent_of_pending : u.status = .pending → ∀ stream, (u.lines stream).toList = []
  pending_of_blockedBy : u.blockedBy.isSome = true → u.status = .pending

variable {u : TaskState}

/-- Lines and retries do not end a task that has started. -/
lemma IsUnderway.apply (h : u.IsUnderway) {c : TaskChange} (hc : c.isProgress = true) :
    (u.apply c).IsUnderway := by
  obtain ⟨h₁, h₂, h₃, h₄, h₅, h₆, h₇⟩ := h
  cases c with
  | output stream line => cases stream <;> exact ⟨h₁, h₂, h₃, h₄, h₅, h₆, h₇⟩
  | retrying attempt maxAttempts time => exact ⟨rfl, h₂, h₃, h₄, h₅, h₆, h₇⟩
  | _ => cases hc

/-- A task that is underway is consistent. -/
lemma IsUnderway.consistent (h : u.IsUnderway) : u.Consistent := by
  obtain ⟨h₁, h₂, h₃, h₄, h₅, h₆, h₇⟩ := h
  constructor <;> simp [h₁, h₂, h₃, h₄, h₅, h₆, h₇]

/-- A task that comes to its end fits together if it was under way. -/
lemma IsUnderway.consistent_complete (h : u.IsUnderway) (time : Timestamp) (outcome : TaskOutcome) :
    (u.complete time outcome).Consistent := by
  obtain ⟨h₁, h₂, h₃, h₄, h₅, h₆, h₇⟩ := h
  cases outcome <;> constructor <;> simp [complete, h₂, h₄, h₅, h₆, h₇]

/-- A task that was registered is consistent. -/
lemma consistent_fresh (id : TaskId) (name : String) : (fresh id name).Consistent := by
  constructor <;> simp [fresh]
  rintro (_ | _) <;> rfl

/-- A task that is blocked is consistent. -/
lemma consistent_blocked (id : TaskId) (name : String) (d : TaskId) :
    ((fresh id name).apply (.blocked d)).Consistent := by
  constructor <;> simp [fresh, apply]
  rintro (_ | _) <;> rfl

end TaskState

variable {cs : List TaskChange}

/-- What is known of a task that has told its start and not its end. -/
lemma TaskChange.Underway.isUnderway (h : Underway cs) (id : TaskId) (name : String) :
    (cs.foldl TaskState.apply (.fresh id name)).IsUnderway := by
  obtain ⟨time, rest, rfl, hrest⟩ := h
  have hstart : ((TaskState.fresh id name).apply (.started time)).IsUnderway :=
    ⟨rfl, rfl, rfl, rfl, rfl, rfl, rfl⟩
  rw [List.foldl_cons]
  generalize (TaskState.fresh id name).apply (.started time) = u at hstart
  induction rest generalizing u with
  | nil => exact hstart
  | cons c rest ih =>
    exact ih (fun x hx => hrest x (List.mem_cons_of_mem _ hx)) _
      (hstart.apply (hrest c List.mem_cons_self))

/-- What is known of a task that has told its end. -/
lemma TaskChange.Completed.exists_isUnderway {outcome : TaskOutcome} (h : Completed outcome cs)
    (id : TaskId) (name : String) : ∃ u time, TaskState.IsUnderway u ∧
      cs.foldl TaskState.apply (.fresh id name) = u.complete time outcome := by
  obtain ⟨body, time, hbody, rfl⟩ := h
  exact ⟨_, time, hbody.isUnderway id name, List.foldl_append⟩

/-- **Whatever part of its life a job has told, the fields of its task fit together.** -/
theorem Lived.consistent (h : Lived cs) (id : TaskId) (name : String) :
    (cs.foldl TaskState.apply (.fresh id name)).Consistent := by
  rcases h with rfl | ⟨d, rfl⟩ | h | ⟨outcome, h⟩
  · exact TaskState.consistent_fresh id name
  · exact TaskState.consistent_blocked id name d
  · exact (h.isUnderway id name).consistent
  · obtain ⟨u, time, hu, heq⟩ := h.exists_isUnderway id name
    exact heq ▸ hu.consistent_complete time outcome

/-- What a phase says about the task `t` of a job, of which `u` is known: an attempt has the number
that the last retry announced, and the attempts of a result are counted from one. A result that
comes without any attempt is that of a task that was not started. -/
def Phase.Numbered (t : TaskDefinition) (u : TaskState) : Phase → Prop
  | .beginning n | .attempting n .. | .playing n _ | .judging n _ | .resting n _ =>
    n = u.retryAttempt
  | .reporting attempts _ | .completing attempts _ | .releasing attempts _ =>
    attempts = u.retryAttempt + 1
  | .settling _ (some r) | .ended _ (some r) =>
    u.status = .pending ∧ r = .notStarted t.id ∨
      u.status ≠ .pending ∧ r.attempts = u.retryAttempt + 1
  | _ => True

namespace Machine

variable {p : Plan} {j : Job} {a b : Phase} {k : Nat} {m : Machine} {c : Option TaskChange}
  {u : TaskState} {interval limit : Nat} {world : Machine}

/-- The phase that follows the attempts has their number. -/
lemma numbered_concluded {t t' : TaskDefinition} {attempts : UInt32} {outcome : TaskOutcome}
    (h : attempts = u.retryAttempt + 1) : (concluded t' attempts outcome).Numbered t u := by
  unfold concluded
  split <;> exact h

/-- A move counts the attempts as it tells them. -/
lemma Moves.numbered {s : JobState} {v : Move} (h : Moves p j s m a v)
    (htold : a.Told m.interrupted cs)
    (ha : a.Numbered j.task (cs.foldl TaskState.apply (.fresh j.task.id j.task.name))) :
    v.phase.Numbered j.task
      ((cs ++ v.deed.told.toList).foldl TaskState.apply (.fresh j.task.id j.task.name)) := by
  rw [List.foldl_append]
  cases h with
  | withdraw | leave | refuse => obtain rfl : cs = [] := htold; exact .inl ⟨rfl, rfl⟩
  | start => obtain rfl : cs = [] := htold; rfl
  | emit n stream line next => cases stream <;> exact ha
  | retry => rfl
  | succeed n | exhaust n | stop n => exact numbered_concluded (congrArg (· + 1) ha)
  | keep attempts outcome => rw [told_keepReport]; exact ha
  | complete attempts outcome => cases outcome <;> exact ha
  | release attempts outcome =>
    refine .inr ⟨?_, ha⟩
    have hstatus := TaskChange.Completed.status_eq htold (.fresh j.task.id j.task.name)
    refine fun hpending => absurd (hstatus.symm.trans hpending) ?_
    split <;> simp
  | settle outcome result => cases result <;> exact ha
  | begin | fail | resume | cancel | finish | doze | sleep | trigger | note | files | wake =>
    exact ha
  | _ => trivial

/-- A turn counts the attempts as it tells them. -/
lemma Turn.numbered (h : Turn p j m a c b) (htold : a.Told m.interrupted cs)
    (ha : a.Numbered j.task (cs.foldl TaskState.apply (.fresh j.task.id j.task.name))) :
    b.Numbered j.task
      ((cs ++ c.toList).foldl TaskState.apply (.fresh j.task.id j.task.name)) := by
  cases h with
  | stay => exact (List.append_nil cs).symm ▸ ha
  | grant | hear => trivial
  | move h => exact h.numbered htold ha

/-- **In every reached machine a job counts the attempts that it has told.** -/
theorem Reached.numbered (hslots : Slots.ofLimit? limit = .ok world.slots)
    (h : Reached p interval world m) (hj : p.jobs[k]? = some j) (ha : m.phaseOf? k = some a) :
    ∃ cs, m.toldBy k = j.registration ++ cs ∧ a.Told m.interrupted cs ∧
      a.Numbered j.task (cs.foldl TaskState.apply (.fresh j.task.id j.task.name)) := by
  refine h.induct_job hslots hj (I := fun m a told => ∃ cs, told = j.registration ++ cs ∧
    a.Told m.interrupted cs ∧
      a.Numbered j.task (cs.foldl TaskState.apply (.fresh j.task.id j.task.name))) ?_ ?_ ha
  · refine ⟨[], (List.append_nil _).symm, ?_⟩
    unfold firstPhase
    split <;> exact ⟨rfl, trivial⟩
  · rintro m m' a c b told - hs hturn - ⟨cs, rfl, htold, hcs⟩
    exact ⟨cs ++ c.toList, List.append_assoc _ _ _, told_mono hs.interrupted_of (hturn.told htold),
      hturn.numbered htold hcs⟩

/-- **In every reached machine, what is known of the task of a job**: it is what the job has told,
and the phase of the job tells the same. -/
theorem Reached.exists_standing (hslots : Slots.ofLimit? limit = .ok world.slots) (hp : p.Linked)
    (h : Reached p interval world m) (hj : p.jobs[k]? = some j) (ha : m.phaseOf? k = some a) :
    ∃ cs, m.toldBy k = j.registration ++ cs ∧ a.Told m.interrupted cs ∧
      let u := cs.foldl TaskState.apply (.fresh j.task.id j.task.name)
      a.Numbered j.task u ∧ u.Consistent ∧
        (SystemState.empty.fold m.events).get? j.task.id = some u := by
  obtain ⟨cs, htold, hcs, hstate⟩ := h.get?_fold_events hslots hp hj ha
  obtain ⟨cs', hcs', -, hnumbered⟩ := h.numbered hslots hj ha
  obtain rfl : cs = cs' := List.append_cancel_left (hcs.symm.trans hcs')
  exact ⟨cs, hcs, htold, hnumbered, htold.lived.consistent _ _, hstate⟩

end Machine

end Taskflow
