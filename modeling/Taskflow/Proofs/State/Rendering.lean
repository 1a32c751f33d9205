import Taskflow.Proofs.State.Growth
import Taskflow.Proofs.State.Tally
import Taskflow.State.Rendering
set_option autoImplicit false

/-!
# What a renderer logs

A renderer sees some of the states of a run, in their order, and logs what is new in each. What it
has logged of a task by the end depends on the last state only: every line once, the start and the
end once, and so on. How many states were left out in between, and which, does not matter.

## Main definitions

* `LogEntry.Kind` — the kinds of entries, in the order in which a snapshot brings them.
* `Progress.part` — what a snapshot adds to the log, kind by kind.
* `TaskState.LoggedAs` — a log that tells the state of a task, all of it and nothing twice.
* `Renderer.renderAll` — one snapshot after the other is logged.

## Main results

* `TaskState.LoggedAs.next` — a log that tells one state and what is new in a later one tell the
  later one.
* `Renderer.Shows.render` — the same for the records of a task in a snapshot of all tasks.
* `Renderer.log_tells_last` — what has been logged by the end tells the last state.

## Design

Entries of different kinds do not interfere, so a log is looked at kind by kind: of each kind it
holds what the state asks for. The order of entries is a relation between two kinds, and in what one
snapshot adds all kinds stand in one order.
-/

namespace Taskflow

open Coordinator (stateAt)

/-! ### Kinds of entries -/

namespace LogEntry

/-- The kinds of what can be logged of a task, in the order in which a snapshot brings them. -/
inductive Kind where
  | start
  | retry
  | line (stream : Stream)
  | ending
  | skip
  deriving Repr, DecidableEq

/-- All kinds, in their order. -/
def Kind.all : List Kind := [.start, .retry, .line .stdout, .line .stderr, .ending, .skip]

/-- The kind of an entry. -/
def kind : LogEntry → Kind
  | .started => .start
  | .retrying .. => .retry
  | .line stream _ => .line stream
  | .succeeded _ | .failed .. => .ending
  | .skipped _ => .skip

/-- The number of the retry that is logged. -/
def attempt? : LogEntry → Option UInt32
  | .retrying attempt _ => some attempt
  | _ => none

/-- The entries of a kind. -/
def ofKind (k : Kind) (log : List LogEntry) : List LogEntry := log.filter fun e => e.kind = k

/-- The numbers of the retries that were logged. -/
def attempts (log : List LogEntry) : List UInt32 := (ofKind .retry log).filterMap attempt?

/-- The start is not logged behind a line, and no line is logged behind the end. -/
def InOrder (log : List LogEntry) : Prop :=
  log.Pairwise fun e f =>
    (∀ stream, e.kind = .line stream → f.kind ≠ .start) ∧
    (e.kind = .ending → ∀ stream, f.kind ≠ .line stream)

variable {e : LogEntry} {k : Kind} {log more : List LogEntry}

/-- The entries of a kind in more of a log come after those in the first part. -/
lemma ofKind_append : ofKind k (log ++ more) = ofKind k log ++ ofKind k more :=
  List.filter_append ..

/-- An entry is one of its kind. -/
lemma mem_ofKind (he : e ∈ log) : e ∈ ofKind e.kind log :=
  List.mem_filter.2 ⟨he, decide_eq_true rfl⟩

/-- The attempts in more of a log come after those in the first part. -/
lemma attempts_append : attempts (log ++ more) = attempts log ++ attempts more := by
  rw [attempts, ofKind_append, List.filterMap_append]
  rfl

end LogEntry

/-- An end is logged of a task exactly if it has come to it. -/
lemma TaskState.isSome_endEntry? (t : TaskState) : t.endEntry?.isSome = t.status.isTerminal := by
  unfold endEntry?
  cases t.status <;> rfl

/-- What is logged of the end of a task is an end. -/
lemma TaskState.kind_of_mem_endEntry? {t : TaskState} {e : LogEntry} (he : e ∈ t.endEntry?) :
    e.kind = .ending := by
  unfold endEntry? at he
  split at he <;> cases he <;> rfl

open LogEntry (Kind ofKind ofKind_append mem_ofKind attempts attempts_append InOrder)

/-! ### What a snapshot adds -/

namespace Progress

/-- How many lines of a stream have been logged. -/
def lines (p : Progress) : Stream → Nat
  | .stdout => p.stdout
  | .stderr => p.stderr

/-- What a snapshot of a task adds to the log, of one kind. -/
def part (p : Progress) (t : TaskState) : Kind → List LogEntry
  | .start => p.startEntries t
  | .retry => p.retryEntries t
  | .line stream => ((t.lines stream).iterFrom (p.lines stream)).map (.line stream)
  | .ending => p.endEntries t
  | .skip => p.skipEntries t

variable {p : Progress} {t : TaskState} {e : LogEntry} {k : Kind}

/-- A snapshot adds one kind after the other. -/
lemma entries_eq_flatMap (p : Progress) (t : TaskState) :
    p.entries t = Kind.all.flatMap (p.part t) := by
  simp [entries, lineEntries, Kind.all, part, lines, TaskState.lines]

/-- The entries of a part are of its kind. -/
lemma kind_of_mem_part (he : e ∈ p.part t k) : e.kind = k := by
  cases k with
  | start =>
    rw [part, startEntries] at he
    split at he <;> simp_all [LogEntry.kind]
  | retry =>
    rw [part, retryEntries] at he
    split at he <;> simp_all [LogEntry.kind]
  | line stream =>
    obtain ⟨text, -, rfl⟩ := List.mem_map.1 he
    rfl
  | ending =>
    rw [part, endEntries] at he
    split at he
    · cases he
    · exact TaskState.kind_of_mem_endEntry? (Option.mem_toList.1 he)
  | skip =>
    rw [part, skipEntries] at he
    split at he
    · cases he
    · obtain ⟨d, -, rfl⟩ := Option.map_eq_some_iff.1 (Option.mem_toList.1 he)
      rfl

/-- A part has entries of one kind only. -/
lemma ofKind_part (p : Progress) (t : TaskState) (k k' : Kind) :
    ofKind k (p.part t k') = if k' = k then p.part t k else [] := by
  split
  next h =>
    subst h
    exact List.filter_eq_self.2 fun e he => decide_eq_true (kind_of_mem_part he)
  next h =>
    refine List.filter_eq_nil_iff.2 fun e he hk => h ?_
    exact (kind_of_mem_part he).symm.trans (of_decide_eq_true hk)

/-- **The entries of a kind that a snapshot adds** are its part of that kind. -/
lemma ofKind_entries (p : Progress) (t : TaskState) (k : Kind) :
    ofKind k (p.entries t) = p.part t k := by
  rw [entries_eq_flatMap]
  simp only [Kind.all, List.flatMap_cons, List.flatMap_nil, ofKind_append, ofKind_part]
  rcases k with _ | _ | ⟨_ | _⟩ | _ | _ <;> simp [ofKind]

/-- What a snapshot adds is in order, as all kinds are. -/
lemma inOrder_entries (p : Progress) (t : TaskState) : InOrder (p.entries t) := by
  rw [InOrder, entries_eq_flatMap, List.pairwise_flatMap]
  constructor
  · intro k _
    refine List.pairwise_of_forall_mem_list fun e he f hf => ?_
    rw [kind_of_mem_part he, kind_of_mem_part hf]
    exact ⟨fun stream h => by rw [h]; nofun, fun h stream => by rw [h]; nofun⟩
  · have hkinds : Kind.all.Pairwise fun k k' =>
        (∀ stream, k = .line stream → k' ≠ .start) ∧
        (k = .ending → ∀ stream, k' ≠ .line stream) := by
      simp [Kind.all]
    refine hkinds.imp fun {k k'} h e he f hf => ?_
    rw [kind_of_mem_part he, kind_of_mem_part hf]
    exact h

/-- To have logged nothing comes to the same as to have logged a task that was just registered. -/
lemma entries_default (id : TaskId) (name : String) (t : TaskState) :
    ({} : Progress).entries t = (Progress.ofTask (.fresh id name)).entries t := by
  have hend : ({} : Progress).endEntries t = (Progress.ofTask (.fresh id name)).endEntries t := by
    unfold endEntries TaskState.endEntry?
    cases t.status <;> rfl
  have hstart : ({} : Progress).startEntries t =
      (Progress.ofTask (.fresh id name)).startEntries t := by
    simp [startEntries, ofTask, TaskState.fresh]
  rw [entries, entries, hend, hstart]
  rfl

end Progress

/-! ### One task -/

namespace TaskState

/-- A log that tells the state of a task: each line once and in order, the start once if the task
has left its first status, the end once if it has come to it, once that it is blocked if it is, and
retries counted upward to the last. -/
structure LoggedAs (u : TaskState) (log : List LogEntry) : Prop where
  lines : ∀ stream, ofKind (.line stream) log = (u.lines stream).toList.map (.line stream)
  started : ofKind .start log = if u.status = .pending then [] else [.started]
  ended : ofKind .ending log = u.endEntry?.toList
  skipped : ofKind .skip log = (u.blockedBy.map .skipped).toList
  inOrder : InOrder log
  attempts_increase : (attempts log).Pairwise (· < ·)
  last_attempt : (attempts log).getLast? = if u.retryAttempt = 0 then none else some u.retryAttempt

variable {u v : TaskState} {log : List LogEntry}

/-- Of a task that was registered nothing is logged. -/
lemma loggedAs_fresh (id : TaskId) (name : String) : (fresh id name).LoggedAs [] where
  lines := fun stream => by cases stream <;> rfl
  started := rfl
  ended := rfl
  skipped := rfl
  inOrder := List.Pairwise.nil
  attempts_increase := List.Pairwise.nil
  last_attempt := rfl

/-- No retry that was logged is later than the last. -/
lemma LoggedAs.le_of_mem_attempts (h : u.LoggedAs log) {a : UInt32} (ha : a ∈ attempts log) :
    a ≤ u.retryAttempt := by
  have hlast := h.last_attempt
  have hincrease := h.attempts_increase
  rcases List.eq_nil_or_concat (attempts log) with hnil | ⟨init, b, hinit⟩
  · rw [hnil] at ha
    cases ha
  · rw [hinit, List.concat_eq_append] at ha hlast hincrease
    rw [List.getLast?_concat] at hlast
    have hb : b = u.retryAttempt := by
      split at hlast
      · cases hlast
      · exact Option.some.inj hlast
    rcases List.mem_append.1 ha with ha | ha
    · exact hb ▸ UInt32.le_of_lt ((List.pairwise_append.1 hincrease).2.2 a ha b (by simp))
    · exact hb ▸ List.mem_singleton.1 ha ▸ UInt32.le_refl _

/-- What the retries add that a later state asks for. -/
lemma attempts_entries (u v : TaskState) :
    attempts ((Progress.ofTask u).entries v) =
      if u.retryAttempt < v.retryAttempt then [v.retryAttempt] else [] := by
  rw [attempts, Progress.ofKind_entries, Progress.part, Progress.retryEntries]
  change List.filterMap _ (if u.retryAttempt < v.retryAttempt then _ else _) = _
  split <;> rfl

/-- A line that was logged has taken the task out of its first status, and behind an end that was
logged no line is new. -/
lemma LoggedAs.inOrder_next (h : u.LoggedAs log) (huv : u.Precedes v) :
    InOrder (log ++ (Progress.ofTask u).entries v) := by
  refine List.pairwise_append.2 ⟨h.inOrder, Progress.inOrder_entries _ _, fun e he f hf => ?_⟩
  have he := mem_ofKind he
  have hf := mem_ofKind hf
  rw [Progress.ofKind_entries] at hf
  constructor
  · intro stream hline hstart
    rw [hline, h.lines, List.mem_map] at he
    obtain ⟨text, htext, -⟩ := he
    rw [hstart, Progress.part, Progress.startEntries] at hf
    have hpending : u.status = .pending := by
      by_contra hne
      simp [Progress.ofTask, hne] at hf
    rw [huv.silent hpending] at htext
    cases htext
  · intro hend stream hline
    rw [hend, h.ended, Option.mem_toList] at he
    have hterminal : u.status.isTerminal = true := by
      rw [← isSome_endEntry?, Option.mem_def.1 he]
      rfl
    have hlines := huv.lines stream
    rw [huv.of_isTerminal hterminal, List.self_eq_append_right] at hlines
    have hnone : (Progress.ofTask u).part v (.line stream) = [] := by
      rw [huv.of_isTerminal hterminal, Progress.part]
      have hcount : (Progress.ofTask u).lines stream = (u.lines stream).size := by
        cases stream <;> rfl
      rw [hcount, hlines, List.map_nil]
    rw [hline, hnone] at hf
    cases hf

/-- **A log that tells a state, and what is new in a later one, tell the later one.** -/
theorem LoggedAs.next (h : u.LoggedAs log) (huv : u.Precedes v) :
    v.LoggedAs (log ++ (Progress.ofTask u).entries v) where
  lines := fun stream => by
    have hcount : (Progress.ofTask u).lines stream = (u.lines stream).size := by
      cases stream <;> rfl
    rw [ofKind_append, h.lines, Progress.ofKind_entries, Progress.part, hcount, ← List.map_append,
      ← huv.lines]
  started := by
    rw [ofKind_append, h.started, Progress.ofKind_entries, Progress.part, Progress.startEntries]
    have hpending := huv.of_pending
    by_cases hu : u.status = .pending
    · by_cases hv : v.status = .pending <;> simp [Progress.ofTask, hu, hv]
    · have hv : v.status ≠ .pending := fun hv => hu (hpending hv)
      simp [Progress.ofTask, hu, hv]
  ended := by
    rw [ofKind_append, h.ended, Progress.ofKind_entries, Progress.part, Progress.endEntries]
    by_cases hend : u.status.isTerminal = true
    · rw [huv.of_isTerminal hend, Progress.ofTask, if_pos rfl, List.append_nil]
    · have hnone : ∀ {t : TaskState}, ¬ t.status.isTerminal = true → t.endEntry? = none := by
        intro t ht
        rwa [← isSome_endEntry?, Option.not_isSome_iff_eq_none] at ht
      rw [hnone hend, Option.toList_none, List.nil_append]
      split
      next hsame => rw [hnone (Option.some.inj hsame ▸ hend), Option.toList_none]
      next => rfl
  skipped := by
    rw [ofKind_append, h.skipped, Progress.ofKind_entries, Progress.part, Progress.skipEntries]
    cases hu : u.blockedBy with
    | none => simp [Progress.ofTask, isBlocked, hu]
    | some d => simp [Progress.ofTask, isBlocked, hu, huv.blockedBy d hu]
  inOrder := h.inOrder_next huv
  attempts_increase := by
    rw [attempts_append, attempts_entries]
    refine List.pairwise_append.2 ⟨h.attempts_increase, ?_, fun a ha b hb => ?_⟩
    · split <;> simp
    · split at hb
      next hlt =>
        rw [List.mem_singleton.1 hb]
        exact UInt32.lt_of_le_of_lt (h.le_of_mem_attempts ha) hlt
      next => cases hb
  last_attempt := by
    rw [attempts_append, attempts_entries, List.getLast?_append, h.last_attempt]
    split
    next hlt =>
      have hne : v.retryAttempt ≠ 0 := fun h0 => UInt32.not_lt_zero (h0 ▸ hlt)
      simp [hne]
    next hle =>
      have heq : u.retryAttempt = v.retryAttempt :=
        UInt32.le_antisymm huv.attempt_le (UInt32.not_lt.1 hle)
      simp [heq]

end TaskState

/-! ### All tasks -/

namespace LogRecord

/-- Whether a record is about a task. -/
def isAbout (id : TaskId) (r : LogRecord) : Bool := r.fields.head? = some ("task", id.toJson)

/-- A record of an entry is about its task. -/
lemma isAbout_record (id i : TaskId) (e : LogEntry) :
    (e.record i).isAbout id = decide (i = id) := by
  have hid : (i.toJson = id.toJson) ↔ i = id := by
    obtain ⟨a⟩ := i
    obtain ⟨b⟩ := id
    simp [TaskId.toJson]
  rw [isAbout]
  rcases e with _ | _ | ⟨_ | _⟩ | _ | _ | _ <;> simp [LogEntry.record, ofTask, hid]

/-- The records about a task are those of its own entries. -/
lemma filter_isAbout_map (id : TaskId) (log : List (TaskId × LogEntry)) :
    (log.map fun e => e.2.record e.1).filter (isAbout id) =
      ((log.filter fun e => e.1 = id).map (·.2)).map (LogEntry.record id) := by
  induction log with
  | nil => rfl
  | cons e rest ih =>
    rw [List.map_cons, List.filter_cons, isAbout_record, ih, List.filter_cons]
    by_cases he : e.1 = id
    · simp [he]
    · simp [he]

end LogRecord

namespace Renderer

open LogRecord (isAbout filter_isAbout_map)

variable {id : TaskId} {r : Renderer} {s : SystemState}

/-- One snapshot after the other is logged. -/
def renderAll (r : Renderer) : List SystemState → Renderer × List LogRecord
  | [] => (r, [])
  | s :: rest =>
    let (r, records) := r.render s
    let (r, more) := renderAll r rest
    (r, records ++ more)

/-- Tasks are rendered one after the other. -/
lemma renderTasks_cons (r : Renderer) (t : TaskState) (rest : List TaskState) :
    r.renderTasks (t :: rest) =
      (((r.renderTask t).1.renderTasks rest).1,
        (r.renderTask t).2 ++ ((r.renderTask t).1.renderTasks rest).2) := rfl

/-- States are rendered one after the other. -/
lemma renderAll_cons (r : Renderer) (s : SystemState) (rest : List SystemState) :
    r.renderAll (s :: rest) =
      (((r.render s).1.renderAll rest).1,
        (r.render s).2 ++ ((r.render s).1.renderAll rest).2) := rfl

/-- Rendering a task changes its own progress only. -/
lemma progress_renderTask (r : Renderer) (t : TaskState) (id : TaskId) :
    (r.renderTask t).1.progress id = if t.id = id then .ofTask t else r.progress id := by
  rw [progress, renderTask, Table.get?_insert]
  split <;> rfl

/-- Tasks that are not about `id` add nothing about it. -/
lemma renderTasks_of_forall_ne {tasks : List TaskState} (h : ∀ t ∈ tasks, t.id ≠ id)
    (r : Renderer) :
    (r.renderTasks tasks).1.progress id = r.progress id ∧
      (r.renderTasks tasks).2.filter (fun e => e.1 = id) = [] := by
  induction tasks generalizing r with
  | nil => exact ⟨rfl, rfl⟩
  | cons t rest ih =>
    have ht : t.id ≠ id := h t List.mem_cons_self
    obtain ⟨hprogress, hlog⟩ := ih (fun u hu => h u (List.mem_cons_of_mem _ hu)) (r.renderTask t).1
    rw [renderTasks_cons, List.filter_append, hlog, hprogress, progress_renderTask, if_neg ht,
      renderTask]
    simp [ht]

/-- Of tasks with different identifiers, each one adds what is new about it. -/
lemma renderTasks_of_mem {tasks : List TaskState} (hnodup : (tasks.map (·.id)).Nodup)
    {t : TaskState} (ht : t ∈ tasks) (r : Renderer) :
    (r.renderTasks tasks).1.progress t.id = .ofTask t ∧
      ((r.renderTasks tasks).2.filter fun e => e.1 = t.id).map (·.2) =
        (r.progress t.id).entries t := by
  induction tasks generalizing r with
  | nil => cases ht
  | cons u rest ih =>
    obtain ⟨hu, hrest⟩ := List.nodup_cons.1 hnodup
    rw [renderTasks_cons, List.filter_append, List.map_append]
    rcases List.mem_cons.1 ht with rfl | ht
    · have hne : ∀ x ∈ rest, x.id ≠ t.id := fun x hx hid => hu (List.mem_map.2 ⟨x, hx, hid⟩)
      obtain ⟨hprogress, hlog⟩ := renderTasks_of_forall_ne hne (r.renderTask t).1
      have hall : ((r.renderTask t).2.filter fun e => e.1 = t.id) = (r.renderTask t).2 :=
        List.filter_eq_self.2 (by simp [renderTask])
      rw [hprogress, hlog, hall, progress_renderTask, if_pos rfl, renderTask]
      simp [Function.comp_def]
    · have hne : u.id ≠ t.id := fun hid => hu (List.mem_map.2 ⟨t, ht, hid.symm⟩)
      obtain ⟨hprogress, hlog⟩ := ih hrest ht (r.renderTask u).1
      rw [hprogress, hlog, progress_renderTask, if_neg hne, renderTask]
      simp [hne]

/-- What a snapshot adds about a task that is not in it. -/
lemma renderEntries_of_get?_eq_none (hs : s.Keyed) (h : s.get? id = none) (r : Renderer) :
    (r.renderEntries s).1.progress id = r.progress id ∧
      (r.renderEntries s).2.filter (fun e => e.1 = id) = [] := by
  refine renderTasks_of_forall_ne (fun t ht hid => ?_) r
  have hget := hs.mem_values_iff.1 (List.mem_mergeSort.1 ht)
  rw [hid, h] at hget
  cases hget

/-- What a snapshot adds about a task that is in it. -/
lemma renderEntries_of_get?_eq_some (hs : s.Keyed) {t : TaskState} (h : s.get? id = some t)
    (r : Renderer) :
    (r.renderEntries s).1.progress id = .ofTask t ∧
      ((r.renderEntries s).2.filter fun e => e.1 = id).map (·.2) =
        (r.progress id).entries t := by
  obtain rfl := hs.id_eq id t h
  refine renderTasks_of_mem ?_ (List.mem_mergeSort.2 (hs.mem_values_iff.2 h)) r
  have hids : (s.sorted.map (·.id)).Perm s.tasks.keys :=
    hs.ids_eq ▸ (List.mergeSort_perm _ _).map _
  exact hids.nodup_iff.2 hs.nodup

/-- What a renderer has been shown of a task last, and what it has logged of it. -/
def Shows (r : Renderer) (id : TaskId) (own : List LogEntry) : Option TaskState → Prop
  | none => r.progress id = {} ∧ own = []
  | some u => r.progress id = .ofTask u ∧ u.LoggedAs own

/-- At the beginning nothing of a task is shown. -/
lemma shows_empty (id : TaskId) : empty.Shows id [] none := ⟨rfl, rfl⟩

/-- **A later snapshot is logged on top of an earlier one.** -/
theorem Shows.render {own : List LogEntry} {before : Option TaskState} (h : r.Shows id own before)
    (hs : s.Keyed) (hold : ∀ u, before = some u → ∃ v, s.get? id = some v ∧ u.Precedes v)
    (hnew : ∀ v, s.get? id = some v → ∃ name, (TaskState.fresh id name).Precedes v) :
    ∃ new, (r.render s).2.filter (isAbout id) = new.map (LogEntry.record id) ∧
      (r.render s).1.Shows id (own ++ new) (s.get? id) := by
  change ∃ new, List.filter _ (List.map _ (r.renderEntries s).2) = _ ∧
    (r.renderEntries s).1.Shows id (own ++ new) (s.get? id)
  rw [filter_isAbout_map]
  refine ⟨_, rfl, ?_⟩
  cases before with
  | none =>
    obtain ⟨hprogress, rfl⟩ := h
    cases hv : s.get? id with
    | none =>
      obtain ⟨hrest, hlog⟩ := renderEntries_of_get?_eq_none hs hv r
      rw [hlog]
      exact ⟨hrest.trans hprogress, rfl⟩
    | some v =>
      obtain ⟨hrest, hlog⟩ := renderEntries_of_get?_eq_some hs hv r
      obtain ⟨name, hname⟩ := hnew v hv
      rw [hlog, hprogress, Progress.entries_default id name]
      exact ⟨hrest, (TaskState.loggedAs_fresh id name).next hname⟩
  | some u =>
    obtain ⟨hprogress, hlogged⟩ := h
    obtain ⟨v, hv, huv⟩ := hold u rfl
    obtain ⟨hrest, hlog⟩ := renderEntries_of_get?_eq_some hs hv r
    rw [hv, hlog, hprogress]
    exact ⟨hrest, hlogged.next huv⟩

/-- Snapshots after more and more events are logged on top of one that was logged. -/
lemma Shows.renderAll {events : List TaskEvent}
    (hevents : Lifecycle (SystemState.changesOf id events)) {own : List LogEntry} {n : Nat}
    (h : r.Shows id own ((stateAt events n).get? id)) {cuts : List Nat}
    (hcuts : (n :: cuts).Pairwise (· ≤ ·)) :
    ∃ new,
      (r.renderAll (cuts.map (stateAt events))).2.filter (isAbout id) =
        new.map (LogEntry.record id) ∧
      (r.renderAll (cuts.map (stateAt events))).1.Shows id (own ++ new)
        ((stateAt events ((n :: cuts).getLast (List.cons_ne_nil _ _))).get? id) := by
  induction cuts generalizing r own n with
  | nil => exact ⟨[], rfl, (List.append_nil own).symm ▸ h⟩
  | cons k rest ih =>
    obtain ⟨hle, hrest⟩ := List.pairwise_cons.1 hcuts
    obtain ⟨hold, hnew⟩ := hevents.precedes (hle k List.mem_cons_self)
    obtain ⟨new, hlog, hshows⟩ :=
      h.render (s := stateAt events k) (SystemState.keyed_empty.fold _) hold hnew
    obtain ⟨more, hmore, hlast⟩ := ih hshows hrest
    refine ⟨new ++ more, ?_, ?_⟩
    · rw [List.map_cons, renderAll_cons, List.filter_append, hlog, hmore, List.map_append]
    · rw [← List.append_assoc]
      exact hlast

/-- **What has been logged by the end tells the last state**, whichever states were shown before.
A task tells its life and counts its retries upward; and a renderer that has been shown nothing is
shown the states after more and more events. Then the records about the task are those of a log
that tells its last state: there is a record for every line, in the order of the lines of each
stream; for the start, before all lines, if the task has started; for the end, after all lines, if
it has ended; for what blocks it, if it is blocked; and for retries that are counted upward to the
last. There is no other record about it, and none twice. The renderer has counted its lines.

**Proof sketch.** By induction on the states that are shown. A renderer remembers of each task how
much of it has been logged (`Shows`). Between two states the lines of a task become more, and its
retries are counted upward; so what is logged for the new state follows what was logged before, in
the right order and without repetitions (`TaskState.LoggedAs.next`). -/
theorem log_tells_last (events : List TaskEvent) (id : TaskId)
    (hevents : Lifecycle (SystemState.changesOf id events)) (cuts : List Nat)
    (hcuts : cuts.Pairwise (· ≤ ·)) :
    let frames := cuts.map (stateAt events)
    let last := frames.getLast?.getD .empty
    let (r, log) := empty.renderAll frames
    ∃ own : List LogEntry, log.filter (isAbout id) = own.map (LogEntry.record id) ∧
      match last.get? id with
      | none => own = [] ∧ r.renderedLines id = (0, 0)
      | some u => u.LoggedAs own ∧ r.renderedLines id = (u.stdout.size, u.stderr.size) := by
  have hlast : ((cuts.map (stateAt events)).getLast?.getD .empty) =
      stateAt events ((0 :: cuts).getLast (List.cons_ne_nil _ _)) := by
    rcases List.eq_nil_or_concat cuts with rfl | ⟨init, k, rfl⟩
    · rfl
    · rw [List.concat_eq_append, List.map_append, List.map_singleton, List.getLast?_concat]
      simp
  have hordered : (0 :: cuts).Pairwise (· ≤ ·) :=
    List.pairwise_cons.2 ⟨fun _ _ => Nat.zero_le _, hcuts⟩
  obtain ⟨own, hlog, hshows⟩ := (shows_empty id).renderAll hevents hordered
  refine ⟨own, hlog, ?_⟩
  simp only [hlast]
  rw [List.nil_append] at hshows
  split
  next h =>
    rw [h] at hshows
    exact ⟨hshows.2, by rw [renderedLines, hshows.1]⟩
  next u h =>
    rw [h] at hshows
    exact ⟨hshows.2, by rw [renderedLines, hshows.1]; rfl⟩

/-- A task puts out lines and is retried twice. -/
def buildTells : List TaskChange :=
  [.started (.ofMillis 0), .output .stdout "compiling", .retrying 1 3 (.ofMillis 5),
    .output .stderr "no space left", .retrying 2 3 (.ofMillis 10), .output .stdout "compiling"]

/-- In the end the task fails, and another is blocked. -/
def buildEvents : List TaskEvent :=
  [⟨⟨"build"⟩, .registered "Build"⟩, ⟨⟨"deploy"⟩, .registered "Deploy"⟩] ++
    buildTells.map (⟨⟨"build"⟩, ·⟩) ++
    [⟨⟨"build"⟩, .completed (.ofMillis 12) (.failure "exit code 1" none false)⟩,
      ⟨⟨"deploy"⟩, .blocked ⟨"build"⟩⟩]

/-- The renderer sees the task when it is only registered, twice while it runs, and when it has
failed; by then it has told its three lines. -/
theorem build_is_logged :
    let (r, log) := empty.renderAll ([2, 4, 4, 10].map (stateAt buildEvents))
    ∃ own u, log.filter (isAbout ⟨"build"⟩) = own.map (LogEntry.record ⟨"build"⟩) ∧
      (stateAt buildEvents 10).get? ⟨"build"⟩ = some u ∧ u.LoggedAs own ∧
      r.renderedLines ⟨"build"⟩ = (2, 1) := by
  have hbody : TaskChange.Underway buildTells := ⟨_, _, rfl, by decide⟩
  have hlife : Lifecycle (SystemState.changesOf ⟨"build"⟩ buildEvents) :=
    .inr ⟨"Build", buildTells ++ [.completed (.ofMillis 12) (.failure "exit code 1" none false)],
      by decide +kernel, .inr (.inr (.inr ⟨_, buildTells, _, hbody, rfl⟩)), by decide +kernel⟩
  obtain ⟨own, hlog, h⟩ := log_tells_last buildEvents ⟨"build"⟩ hlife [2, 4, 4, 10] (by decide)
  have hcounts : ((stateAt buildEvents 10).get? ⟨"build"⟩).map
      (fun u => (u.stdout.size, u.stderr.size)) = some (2, 1) := by decide +kernel
  obtain ⟨u, hu, hcount⟩ := Option.map_eq_some_iff.1 hcounts
  have hlast : (([2, 4, 4, 10].map (stateAt buildEvents)).getLast?.getD .empty).get? ⟨"build"⟩ =
      some u := hu
  rw [hlast] at h
  exact ⟨own, u, hlog, hu, h.1, h.2.trans hcount⟩

end Renderer

end Taskflow
