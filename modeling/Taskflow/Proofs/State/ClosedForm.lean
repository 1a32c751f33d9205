import Taskflow.Proofs.OutputLines
import Taskflow.Proofs.State.Projection
set_option autoImplicit false

/-!
# The closed form of a state

What a list of events says about a task can be read off the list field by field. Only the changes
since the last registration of the task count. Most fields have the value that came last; the
blocking dependency is the one that came first; and lines are collected. So the order of events of
different tasks does not matter.

## Main definitions

* `TaskChange.status?`, `TaskChange.startTime?`, … — the value that a change has for a field.
* `TaskChange.last?` — the value that came last.
* `TaskChange.registration?` — the last registration, and the changes since.
* `TaskState.ofChanges` — the state that is read off the changes.

## Main results

* `TaskState.foldl_apply_fresh` — the state read off the changes is the one they lead to.
* `SystemState.get?_fold_empty` — the same for a task in a list of events of all tasks.
* `SystemState.sameAs_of_get?_eq` — states with the same entries are the same.
* `SystemState.fold_closedForm` — all of this for any list of events.

## Design

The readers are partial functions on single changes, so that the rule of a field is one
`List.filterMap` with the first or the last value taken. The induction of `foldl_apply_fresh` adds
changes at the end: there each reader either gives the new last value or leaves the old one.
-/

namespace Taskflow

namespace TaskChange

variable {α : Type}

/-! ### What a change has to say -/

/-- The status that a change brings. -/
def status? : TaskChange → Option TaskStatus
  | .started _ | .retrying .. => some .running
  | .completed _ (.success _) => some .succeeded
  | .completed _ (.failure ..) => some .failed
  | .registered _ | .output .. | .blocked _ => none

/-- The time of a start. -/
def startTime? : TaskChange → Option Timestamp
  | .started time => some time
  | _ => none

/-- The time of an end. -/
def endTime? : TaskChange → Option Timestamp
  | .completed time _ => some time
  | _ => none

/-- The number of a retry, and how many retries there may be: one less than there may be attempts,
and none if there may be no attempt. -/
def retry? : TaskChange → Option (UInt32 × UInt32)
  | .retrying attempt maxAttempts _ =>
    some (attempt, if maxAttempts = 0 then 0 else maxAttempts - 1)
  | _ => none

/-- The line that is put out on a stream. -/
def line? (stream : Stream) : TaskChange → Option String
  | .output s line => if s = stream then some line else none
  | _ => none

/-- The dependency that blocks. -/
def blocker? : TaskChange → Option TaskId
  | .blocked dependency => some dependency
  | _ => none

/-- The value of a success. -/
def value? : TaskChange → Option Json
  | .completed _ (.success value) => some value
  | _ => none

/-- The text of a failure, and the command that failed if it was one. -/
def failure? : TaskChange → Option (String × Option CommandFailure)
  | .completed _ (.failure error command _) => some (error, command)
  | _ => none

/-! ### The last value, the last registration -/

/-- The value that came last. -/
def last? (f : TaskChange → Option α) (cs : List TaskChange) : Option α :=
  (cs.filterMap f).getLast?

/-- The last value is that of the last change, if it has one. -/
lemma last?_concat (f : TaskChange → Option α) (cs : List TaskChange) (c : TaskChange) :
    last? f (cs ++ [c]) = (f c).or (last? f cs) := by
  rw [last?, List.filterMap_append, List.getLast?_append]
  cases h : f c <;> simp [h, last?]

/-- The name of the last registration and the changes since, if there is a registration. -/
def registration? : List TaskChange → Option (String × List TaskChange)
  | [] => none
  | c :: cs =>
    match registration? cs, c with
    | some r, _ => some r
    | none, .registered name => some (name, cs)
    | none, _ => none

/-- **There is no registration** exactly if no change is one. -/
lemma registration?_eq_none_iff {cs : List TaskChange} :
    registration? cs = none ↔ ∀ name, .registered name ∉ cs := by
  induction cs with
  | nil => simp [registration?]
  | cons c rest ih =>
    cases hr : registration? rest with
    | some r =>
      obtain ⟨name, hname⟩ : ∃ name, .registered name ∈ rest := by simpa [hr] using ih
      have hsome : registration? (c :: rest) ≠ none := by simp [registration?, hr]
      exact iff_of_false hsome fun h => h name (List.mem_cons_of_mem _ hname)
    | none =>
      have hrest := ih.1 hr
      cases c <;> simp [registration?, hr, hrest]

/-- **The last registration** splits the changes; none of those behind it is a registration. -/
lemma registration?_eq_some_iff {cs rest : List TaskChange} {name : String} :
    registration? cs = some (name, rest) ↔
      ∃ before, cs = before ++ .registered name :: rest ∧ ∀ n, .registered n ∉ rest := by
  induction cs with
  | nil => simp [registration?]
  | cons c more ih =>
    constructor
    · intro h
      cases hr : registration? more with
      | some r =>
        have hsome : some r = some (name, rest) := by simpa [registration?, hr] using h
        obtain ⟨before, rfl, hrest⟩ := ih.1 (hr.trans hsome)
        exact ⟨c :: before, rfl, hrest⟩
      | none =>
        cases c with
        | registered n =>
          simp only [registration?, hr, Option.some.injEq, Prod.mk.injEq] at h
          obtain ⟨rfl, rfl⟩ := h
          exact ⟨[], rfl, registration?_eq_none_iff.1 hr⟩
        | _ => simp [registration?, hr] at h
    · rintro ⟨before, hbefore, hrest⟩
      cases before with
      | nil =>
        obtain ⟨rfl, rfl⟩ := List.cons.inj hbefore
        simp [registration?, registration?_eq_none_iff.2 hrest]
      | cons b before =>
        obtain ⟨rfl, rfl⟩ := List.cons.inj hbefore
        have hmore := ih.2 ⟨before, rfl, hrest⟩
        simp only [List.append_eq] at hmore
        simp [registration?, hmore]

end TaskChange

/-! ### One task -/

namespace TaskState

open TaskChange

/-- The state of a task, read off the changes since its registration. -/
def ofChanges (id : TaskId) (name : String) (cs : List TaskChange) : TaskState where
  id := id
  name := name
  status := (last? status? cs).getD .pending
  stdout := .ofList (cs.filterMap (line? .stdout))
  stderr := .ofList (cs.filterMap (line? .stderr))
  startedAt := last? startTime? cs
  completedAt := last? endTime? cs
  error := (last? failure? cs).map (·.1)
  command := (last? failure? cs).bind (·.2)
  retryAttempt := ((last? retry? cs).map (·.1)).getD 0
  maxRetries := ((last? retry? cs).map (·.2)).getD 0
  blockedBy := cs.findSome? blocker?
  result := last? value? cs

/-- A change that is not a registration is taken up by the fields it has something to say on. -/
lemma apply_ofChanges (id : TaskId) (name : String) (cs : List TaskChange) {c : TaskChange}
    (hc : ∀ n, c ≠ .registered n) :
    (ofChanges id name cs).apply c = ofChanges id name (cs ++ [c]) := by
  cases c with
  | registered n => exact absurd rfl (hc n)
  | output stream line =>
    cases stream <;>
      simp [ofChanges, apply, last?_concat, status?, startTime?, endTime?, failure?, retry?,
        value?, line?, blocker?]
  | completed time outcome =>
    cases outcome <;>
      simp [ofChanges, apply, complete, last?_concat, status?, startTime?, endTime?, failure?,
        retry?, value?, line?, blocker?, List.filterMap_cons]
  | blocked d =>
    cases h : cs.findSome? blocker? <;>
      simp [ofChanges, apply, last?_concat, status?, startTime?, endTime?, failure?, retry?,
        value?, line?, blocker?, List.filterMap_cons, h]
  | _ =>
    simp [ofChanges, apply, last?_concat, status?, startTime?, endTime?, failure?, retry?, value?,
      line?, blocker?, List.filterMap_cons]

/-- **The state read off the changes is the one they lead to.** -/
theorem foldl_apply_fresh (id : TaskId) (name : String) {cs : List TaskChange}
    (hcs : ∀ n, .registered n ∉ cs) : cs.foldl apply (.fresh id name) = ofChanges id name cs := by
  induction cs using List.reverseRecOn with
  | nil => rfl
  | append_singleton cs c ih =>
    have hc : ∀ n, c ≠ .registered n := fun n hn => hcs n (by simp [hn])
    rw [List.foldl_append, ih fun n hn => hcs n (List.mem_append_left _ hn)]
    exact apply_ofChanges id name cs hc

/-- A task that is not known stays unknown until it is registered. -/
lemma foldl_learn?_none (id : TaskId) {cs : List TaskChange} (hcs : ∀ n, .registered n ∉ cs) :
    cs.foldl (learn? id) none = none := by
  induction cs with
  | nil => rfl
  | cons c rest ih =>
    have hrest : ∀ n, .registered n ∉ rest := fun n hn => hcs n (List.mem_cons_of_mem _ hn)
    cases c with
    | registered n => exact absurd List.mem_cons_self (hcs n)
    | _ => exact ih hrest

/-- What is known of a task is read off the changes since its last registration. -/
lemma foldl_learn?_eq (id : TaskId) (cs : List TaskChange) :
    cs.foldl (learn? id) none = (registration? cs).map fun r => ofChanges id r.1 r.2 := by
  cases h : registration? cs with
  | none => exact foldl_learn?_none id (registration?_eq_none_iff.1 h)
  | some r =>
    obtain ⟨name, rest⟩ := r
    obtain ⟨before, rfl, hrest⟩ := registration?_eq_some_iff.1 h
    have hlearn : ∀ s, learn? id s (.registered name) = some (.fresh id name) := fun _ => rfl
    have hfold : rest.foldl (learn? id) (some (.fresh id name)) = some (ofChanges id name rest) :=
      (foldl_learn?_some rest (.fresh id name)).trans
        (congrArg some (foldl_apply_fresh id name hrest))
    rw [List.foldl_append, List.foldl_cons, hlearn, hfold]
    rfl

/-- A state is the same as itself. -/
@[simp] lemma sameAs_self (s : TaskState) : s.sameAs s := by
  have hpath : ∀ p : Option String, Path.sameOption p p := by
    rintro (_ | p) <;> simp [Path.sameOption, Path.same]
  have hcommand : ∀ f : Option CommandFailure, sameCommand f f := by
    rintro (_ | f) <;> simp [sameCommand, CommandFailure.sameAs, hpath]
  simp [sameAs, OutputLines.sameAs, hcommand]

end TaskState

/-! ### All tasks -/

namespace SystemState

open TaskChange

/-- **The state of a task is read off its changes since its last registration.** -/
theorem get?_fold_empty (events : List TaskEvent) (id : TaskId) :
    (empty.fold events).get? id =
      (registration? (changesOf id events)).map fun r => TaskState.ofChanges id r.1 r.2 := by
  rw [get?_fold]
  exact TaskState.foldl_learn?_eq id _

/-- **States with the same entries are the same**, whatever the order of the entries. -/
theorem sameAs_of_get?_eq {s t : SystemState} (hs : s.Keyed) (ht : t.Keyed)
    (h : ∀ id, s.get? id = t.get? id) : s.sameAs t := by
  have hkeys : s.tasks.keys.Perm t.tasks.keys := by
    refine (List.perm_ext_iff_of_nodup hs.nodup ht.nodup).2 fun id => ?_
    rw [← Table.isSome_get?_iff, ← Table.isSome_get?_iff]
    exact iff_of_eq (congrArg (fun o : Option TaskState => o.isSome = true) (h id))
  have hsize : s.size = t.size := by
    simpa [Table.keys, size, Table.size] using hkeys.length_eq
  rw [sameAs, decide_eq_true_iff]
  refine ⟨hsize, List.all_eq_true.2 fun p hp => ?_⟩
  have hp' : t.tasks.get? p.1 = some p.2 :=
    (h p.1).symm.trans (Table.get?_of_mem_entries hs.nodup hp)
  simp [hp']

/-- Events of unknown tasks that do not register them do nothing. -/
lemma apply_eq_self {s : SystemState} {e : TaskEvent} (he : ∀ name, e.change ≠ .registered name)
    (h : s.get? e.task = none) : s.apply e = s := by
  obtain ⟨id, change⟩ := e
  have hmodify : ∀ f, s.tasks.modify id f = s.tasks := by
    intro f
    unfold Table.modify
    rw [show s.tasks.get? id = none from h]
  cases change with
  | registered name => exact absurd rfl (he name)
  | _ => exact congrArg SystemState.mk (hmodify _)

/-- **The closed form of the state that events lead to.** For any list of events, well-formed or
not, and any task: the task is unknown if it is never registered, and otherwise its state is read
off its changes since its last registration, field by field, with exactly its lines. Lists that
agree task by task lead to the same state; and an event changes no other task, and nothing at all
if its task is unknown and it does not register it.

**Proof sketch.** What the state knows of a task is its changes folded one after the other,
beginning with its last registration (`get?_fold_empty`); folded over a task that was just
registered, they give the closed form (`TaskState.foldl_apply_fresh`, by induction on the changes
from the end). States whose tables have the same entries are the same, whatever their order. -/
theorem fold_closedForm (events : List TaskEvent) (id : TaskId) :
    ((∀ name, .registered name ∉ changesOf id events) → (empty.fold events).get? id = none) ∧
    (∀ before name cs, changesOf id events = before ++ .registered name :: cs →
      (∀ n, .registered n ∉ cs) →
      ∃ u, (empty.fold events).get? id = some u ∧ u = .ofChanges id name cs ∧
        ∀ stream, (u.lines stream).toList = cs.filterMap (line? stream)) ∧
    (∀ others, (∀ i, changesOf i events = changesOf i others) →
      (empty.fold events).sameAs (empty.fold others) ∧
        ∀ i, (empty.fold events).get? i = (empty.fold others).get? i) ∧
    (∀ e : TaskEvent, e.task ≠ id →
      (empty.fold (events ++ [e])).get? id = (empty.fold events).get? id) ∧
    (∀ e : TaskEvent, (∀ name, e.change ≠ .registered name) →
      (∀ name, .registered name ∉ changesOf e.task events) →
      empty.fold (events ++ [e]) = empty.fold events) := by
  have hunknown : ∀ i, (∀ name, .registered name ∉ changesOf i events) →
      (empty.fold events).get? i = none := fun i hi => by
    rw [get?_fold_empty, registration?_eq_none_iff.2 hi, Option.map_none]
  refine ⟨hunknown id, fun before name cs hcs hlast => ?_, fun others h => ?_, fun e he => ?_,
    fun e he hid => ?_⟩
  · refine ⟨_, ?_, rfl, fun stream => ?_⟩
    · rw [get?_fold_empty, registration?_eq_some_iff.2 ⟨before, hcs, hlast⟩, Option.map_some]
    · cases stream <;> exact OutputLines.toList_ofList _
  · have hget : ∀ i, (empty.fold events).get? i = (empty.fold others).get? i := fun i => by
      rw [get?_fold_empty, get?_fold_empty, h i]
    exact ⟨sameAs_of_get?_eq (keyed_empty.fold events) (keyed_empty.fold others) hget, hget⟩
  · rw [fold_append]
    exact get?_fold_of_forall_ne (by simpa using he) _
  · rw [fold_append]
    exact apply_eq_self he (hunknown e.task hid)

end SystemState

end Taskflow
