import Mathlib.Data.List.DropRight
import Mathlib.Data.List.Nodup
import Taskflow.Event.Emitter
set_option autoImplicit false

/-!
# Emitters that share what they capture

Handles are made of other handles in any order: a clone and a logger share the cell of the handle
that they are made of, and a handle that begins to capture gets a new cell and leaves its clones
behind. What a handle has captured, and what has come out of the queue, is told from the history of
the operations alone, in which there are no cells.

## Main definitions

* `Remark`, `EmitterFamily.Operation` — what is done through a handle, and to the handles.
* `EmitterFamily.run` — the emitters of one queue after some operations.
* `EmitterHistory` — who the handles belong to and what they have said, and nothing else.
* `EmitterFamily.Reflects` — the cells hold what the history tells.

## Main results

* `EmitterFamily.Reflects.perform` — an operation keeps cells and history in step.
* `EmitterFamily.events_run`, `EmitterFamily.events_run_of_dropped` — what comes out of the queue
  before and after the receiver is gone.
* `EmitterFamily.emitters_share_what_they_capture` — all of it.

## Design

In a history, the handles that share have a number in common: that of the operation that made the
first of them capture. A number is never given twice, so a handle that begins to capture shares with
nobody. Cells are numbered by themselves, and `Reflects` carries the list that says which number
each of them stands for.
-/

namespace Taskflow

/-! ### What is done through a handle -/

/-- What can be done through a handle. A logger is a handle that is only used for lines: its
information goes to the standard output and its errors to the standard error. -/
inductive Remark where
  | line (stream : Stream) (text : String)
  | started (time : Timestamp)
  | retrying (attempt maxAttempts : UInt32) (time : Timestamp)
  | blocked (dependency : TaskId)
  | completed (time : Timestamp) (outcome : TaskOutcome)
  /-- what was captured is forgotten -/
  | reset
  deriving Repr, DecidableEq, Inhabited

namespace Remark

/-- The queue after a remark. -/
def perform (q : EventQueue) (e : Emitter) : Remark → EventQueue
  | .line stream text => q.output e stream text
  | .started time => q.emit e (.started time)
  | .retrying attempt maxAttempts time => q.emit e (.retrying attempt maxAttempts time)
  | .blocked dependency => q.emit e (.blocked dependency)
  | .completed time outcome => q.emit e (.completed time outcome)
  | .reset => q.resetCapture e

/-- The change that is emitted. -/
def change? : Remark → Option TaskChange
  | .line stream text => some (.output stream text)
  | .started time => some (.started time)
  | .retrying attempt maxAttempts time => some (.retrying attempt maxAttempts time)
  | .blocked dependency => some (.blocked dependency)
  | .completed time outcome => some (.completed time outcome)
  | .reset => none

/-- The line that is put out on a stream. -/
def line? (s : Stream) : Remark → Option String
  | .line stream text => if stream = s then some text else none
  | _ => none

/-- What is captured after a remark. -/
def keep : Remark → CapturedOutput → CapturedOutput
  | .line stream text, c => c.push stream text
  | .reset, _ => {}
  | _, c => c

end Remark

/-! ### A family of emitters -/

/-- The emitters and loggers of one queue, and what its receiver has got. -/
structure EmitterFamily where
  queue : EventQueue := {}
  handles : List Emitter := []
  received : List TaskEvent := []
  deriving Repr, DecidableEq, Inhabited

namespace EmitterFamily

/-- What can be done with the emitters of a queue, and with its receiver. -/
inductive Operation where
  /-- a new handle for a task -/
  | create (task : TaskId) (capturing : Bool)
  /-- a new handle that is a clone of handle `i` -/
  | clone (i : Nat)
  /-- a new handle that is a logger of handle `i` -/
  | logger (i : Nat)
  /-- handle `i` begins to capture anew -/
  | withCapture (i : Nat)
  /-- something is done through handle `i` -/
  | through (i : Nat) (r : Remark)
  /-- the receiver takes what has arrived -/
  | receive
  | dropReceiver
  deriving Repr, DecidableEq, Inhabited

/-- Carries out an operation. -/
def perform (s : EmitterFamily) : Operation → EmitterFamily
  | .create task capturing =>
    let made := if capturing then s.queue.withCapture { task } else ({ task }, s.queue)
    { s with queue := made.2, handles := s.handles ++ [made.1] }
  | .clone i => { s with handles := s.handles ++ s.handles[i]?.toList }
  | .logger i => { s with handles := s.handles ++ s.handles[i]?.toList }
  | .withCapture i =>
    match s.handles[i]? with
    | some e =>
      let made := s.queue.withCapture e
      { s with queue := made.2, handles := s.handles.set i made.1 }
    | none => s
  | .through i r =>
    match s.handles[i]? with
    | some e => { s with queue := r.perform s.queue e }
    | none => s
  | .receive =>
    let taken := s.queue.receiveAll
    { s with queue := taken.2, received := s.received ++ taken.1 }
  | .dropReceiver => { s with queue := s.queue.close }

/-- The family after some operations. -/
def run (operations : List Operation) : EmitterFamily := operations.foldl perform {}

end EmitterFamily

/-! ### Histories -/

/-- Whom a handle belongs to: its task, and the number of the operation by which the handles that
it shares with began to capture. -/
structure Holder where
  task : TaskId
  share : Option Nat := none
  deriving Repr, DecidableEq, Inhabited

/-- What has happened: how many operations there were, whom the handles belong to, and what was
done through them, in order. -/
structure EmitterHistory where
  length : Nat := 0
  holders : List Holder := []
  remarks : List (Holder × Remark) := []
  deriving Repr, DecidableEq, Inhabited

namespace EmitterHistory

open EmitterFamily (Operation)

/-- Whom the handles belong to after another operation. -/
def holdersAfter (h : EmitterHistory) : Operation → List Holder
  | .create task capturing =>
    h.holders ++ [{ task, share := if capturing then some h.length else none }]
  | .clone i => h.holders ++ h.holders[i]?.toList
  | .logger i => h.holders ++ h.holders[i]?.toList
  | .withCapture i => h.holders.modify i fun x => { x with share := some h.length }
  | .through .. => h.holders
  | .receive => h.holders
  | .dropReceiver => h.holders

/-- What another operation adds to what was done through handles. -/
def remarkOf (h : EmitterHistory) : Operation → Option (Holder × Remark)
  | .through i r => h.holders[i]?.map (·, r)
  | _ => none

/-- Adds an operation. -/
def record (h : EmitterHistory) (op : Operation) : EmitterHistory where
  length := h.length + 1
  holders := h.holdersAfter op
  remarks := h.remarks ++ (h.remarkOf op).toList

/-- The history of some operations. -/
def of (operations : List Operation) : EmitterHistory := operations.foldl record {}

/-- All emissions, each with the task of its handle. -/
def events (h : EmitterHistory) : List TaskEvent :=
  h.remarks.filterMap fun r => r.2.change?.map (⟨r.1.task, ·⟩)

/-- What was done through the handles that share a number. -/
def saidBy (h : EmitterHistory) (k : Nat) : List Remark :=
  h.remarks.filterMap fun r => if r.1.share = some k then some r.2 else none

/-- The lines that were put out on a stream through handles that share a number, since it was last
forgotten through one of them. -/
def linesSinceReset (h : EmitterHistory) (k : Nat) (s : Stream) : List String :=
  ((h.saidBy k).rtakeWhile (· ≠ .reset)).filterMap (·.line? s)

/-- These lines, on both streams. -/
def capture (h : EmitterHistory) (k : Nat) : CapturedOutput :=
  ⟨(h.linesSinceReset k .stdout).toArray, (h.linesSinceReset k .stderr).toArray⟩

end EmitterHistory

/-! ### Remarks and the queue -/

namespace EventQueue

variable (q : EventQueue) (e : Emitter) (f : CapturedOutput → CapturedOutput)

/-- A change of a cell emits nothing. -/
@[simp]
lemma events_modifyCell : (q.modifyCell e f).events = q.events := by
  unfold modifyCell
  split <;> rfl

/-- A change of a cell does not close the queue. -/
@[simp]
lemma isOpen_modifyCell : (q.modifyCell e f).isOpen = q.isOpen := by
  unfold modifyCell
  split <;> rfl

/-- What is emitted is not captured. -/
@[simp]
lemma cells_emit (change : TaskChange) : (q.emit e change).cells = q.cells := by
  unfold emit send
  split <;> rfl

/-- Emitting does not close the queue. -/
@[simp]
lemma isOpen_emit (change : TaskChange) : (q.emit e change).isOpen = q.isOpen := by
  unfold emit send
  split <;> rfl

/-- What is emitted is queued as long as the queue is open. -/
lemma events_emit (change : TaskChange) : (q.emit e change).events =
    if q.isOpen then q.events ++ [⟨e.task, change⟩] else q.events := by
  unfold emit send
  split_ifs <;> rfl

end EventQueue

namespace Remark

variable (q : EventQueue) (e : Emitter) (r : Remark)

/-- A remark captures as it should, and nothing else happens to the cells. -/
lemma cells_perform : (r.perform q e).cells =
    e.cell.elim q.cells fun i => q.cells.modify i r.keep := by
  have hsame : q.cells = e.cell.elim q.cells fun i => q.cells.modify i fun c => c := by
    cases e.cell with
    | none => rfl
    | some i => exact (List.modify_id i q.cells).symm
  have hcells : ∀ f, (q.modifyCell e f).cells =
      e.cell.elim q.cells fun i => q.cells.modify i f := by
    intro f
    unfold EventQueue.modifyCell
    cases e.cell <;> rfl
  cases r with
  | line => exact (EventQueue.cells_emit _ e _).trans (hcells _)
  | reset => exact hcells _
  | started | retrying | blocked | completed => exact (EventQueue.cells_emit q e _).trans hsame

/-- No remark closes the queue. -/
lemma isOpen_perform : (r.perform q e).isOpen = q.isOpen := by
  cases r <;> simp [perform, EventQueue.output, EventQueue.resetCapture]

/-- A remark emits its change, if it has one and there is a receiver. -/
lemma events_perform : (r.perform q e).events =
    if q.isOpen then q.events ++ (r.change?.map (⟨e.task, ·⟩)).toList else q.events := by
  cases r <;> simp [perform, change?, EventQueue.output, EventQueue.resetCapture,
    EventQueue.events_emit]

end Remark

/-! ### What a history tells of another operation -/

namespace EmitterHistory

open EmitterFamily (Operation)

variable (h : EmitterHistory) (op : Operation) (k : Nat) (s : Stream)

/-- The events of a history are those of its remarks. -/
lemma events_record : (h.record op).events =
    h.events ++ (h.remarkOf op).toList.filterMap fun r => r.2.change?.map (⟨r.1.task, ·⟩) :=
  List.filterMap_append

/-- Another remark belongs to the handles that share the number of its handle. -/
lemma saidBy_record : (h.record op).saidBy k = h.saidBy k ++
    (h.remarkOf op).toList.filterMap fun r => if r.1.share = some k then some r.2 else none :=
  List.filterMap_append

/-- Another remark is captured as it should. -/
lemma capture_record_of_share {x : Holder} {r : Remark} (hop : h.remarkOf op = some (x, r))
    (hx : x.share = some k) : (h.record op).capture k = r.keep (h.capture k) := by
  have hsaid : (h.record op).saidBy k = h.saidBy k ++ [r] := by
    simp [saidBy_record, hop, hx]
  have hlines : ∀ s, (h.record op).linesSinceReset k s =
      if r = .reset then [] else h.linesSinceReset k s ++ (r.line? s).toList := by
    intro s
    rw [linesSinceReset, hsaid, List.rtakeWhile_concat]
    by_cases hr : r = .reset
    · simp [hr]
    · rw [if_pos (by simpa using hr), if_neg hr, List.filterMap_append]
      exact congrArg _ (by cases hline : r.line? s <;> simp [hline])
  unfold capture
  rw [hlines, hlines]
  cases r with
  | line stream text => cases stream <;> simp [Remark.line?, Remark.keep, CapturedOutput.push]
  | reset => rfl
  | started | retrying | blocked | completed => simp [Remark.line?, Remark.keep]

/-- What is said through other handles is not captured. -/
lemma capture_record_of_ne (hop : ∀ x r, h.remarkOf op = some (x, r) → x.share ≠ some k) :
    (h.record op).capture k = h.capture k := by
  have hsaid : (h.record op).saidBy k = h.saidBy k := by
    rw [saidBy_record]
    cases hr : h.remarkOf op with
    | none => exact List.append_nil _
    | some r => simp [hop r.1 r.2 hr]
  unfold capture linesSinceReset
  rw [hsaid]

end EmitterHistory

namespace EmitterFamily

variable {s : EmitterFamily} {h : EmitterHistory} {numbers : List Nat}

/-! ### Cells and numbers -/

/-- The cells hold what the history tells: cell by cell, `numbers` says which handles share it. -/
structure Reflects (numbers : List Nat) (s : EmitterFamily) (h : EmitterHistory) : Prop where
  handles_eq : s.handles = h.holders.map fun x => ⟨x.task, x.share.map numbers.idxOf⟩
  cells_eq : s.queue.cells = numbers.map h.capture
  nodup : numbers.Nodup
  lt_length : ∀ k ∈ numbers, k < h.length
  share_mem : ∀ x ∈ h.holders, ∀ k, x.share = some k → k ∈ numbers
  said_mem : ∀ r ∈ h.remarks, ∀ k, r.1.share = some k → k ∈ numbers

/-- At the beginning nothing is known, and nothing is captured. -/
lemma reflects_empty : Reflects [] {} {} := by
  constructor <;> simp

/-- The number of the next operation has not been given before. -/
lemma Reflects.length_not_mem (hs : Reflects numbers s h) : h.length ∉ numbers :=
  fun hmem => Nat.lt_irrefl _ (hs.lt_length _ hmem)

/-- Handles that begin to capture have captured nothing. -/
lemma Reflects.capture_length (hs : Reflects numbers s h) : h.capture h.length = {} := by
  have hsaid : h.saidBy h.length = [] := by
    refine List.filterMap_eq_nil_iff.2 fun r hr => ?_
    rw [if_neg]
    exact fun heq => hs.length_not_mem (hs.said_mem r hr _ heq)
  unfold EmitterHistory.capture EmitterHistory.linesSinceReset
  rw [hsaid]
  rfl

/-- Changing the cell with a number. -/
lemma modify_map_idxOf {α β : Type} [DecidableEq α] {l : List α} {a : α} (hl : l.Nodup)
    (ha : a ∈ l) (g : α → β) (f : β → β) :
    (l.map g).modify (l.idxOf a) f = l.map fun b => if b = a then f (g b) else g b := by
  refine List.ext_getElem (by simp) fun i hi hi' => ?_
  rw [List.getElem_modify, List.getElem_map, List.getElem_map]
  refine if_congr ⟨?_, ?_⟩ rfl rfl
  · rintro rfl
    exact List.getElem_idxOf (List.idxOf_lt_length_of_mem ha)
  · intro heq
    rw [← heq]
    exact hl.idxOf_getElem i _

/-- What another operation says reaches the cells. -/
lemma Reflects.cells_through (hs : Reflects numbers s h) {x : Holder} {r : Remark}
    {op : Operation} (hx : x ∈ h.holders) (hop : h.remarkOf op = some (x, r)) :
    (r.perform s.queue ⟨x.task, x.share.map numbers.idxOf⟩).cells =
      numbers.map (h.record op).capture := by
  rw [Remark.cells_perform, hs.cells_eq]
  cases hshare : x.share with
  | none =>
    refine List.map_congr_left fun k _ => (h.capture_record_of_ne op k ?_).symm
    rintro x' r' hop'
    rw [hop] at hop'
    cases hop'
    simp [hshare]
  | some k =>
    show (numbers.map h.capture).modify (numbers.idxOf k) r.keep = _
    rw [modify_map_idxOf hs.nodup (hs.share_mem x hx k hshare)]
    refine List.map_congr_left fun k' _ => ?_
    split_ifs with hk
    · rw [hk, h.capture_record_of_share op k hop hshare]
    · refine (h.capture_record_of_ne op k' ?_).symm
      rintro x' r' hop'
      rw [hop] at hop'
      cases hop'
      simpa [hshare, eq_comm] using hk

/-- An operation that says nothing and leaves the cells as they are. -/
lemma Reflects.of_quiet (hs : Reflects numbers s h) {s' : EmitterFamily} {op : Operation}
    (hop : h.remarkOf op = none) (hcells : s'.queue.cells = s.queue.cells)
    (hhandles : s'.handles =
      (h.holdersAfter op).map fun x => ⟨x.task, x.share.map numbers.idxOf⟩)
    (hshare : ∀ x ∈ h.holdersAfter op, ∀ k, x.share = some k → k ∈ numbers) :
    Reflects numbers s' (h.record op) where
  handles_eq := hhandles
  cells_eq := by
    rw [hcells, hs.cells_eq]
    exact List.map_congr_left fun k _ => (h.capture_record_of_ne op k (by simp [hop])).symm
  nodup := hs.nodup
  lt_length k hk := Nat.lt_succ_of_lt (hs.lt_length k hk)
  share_mem := hshare
  said_mem r hr := hs.said_mem r (by simpa [EmitterHistory.record, hop] using hr)

/-- An operation by which a handle begins to capture. -/
lemma Reflects.of_capture (hs : Reflects numbers s h) {s' : EmitterFamily} {op : Operation}
    (hop : h.remarkOf op = none)
    (hcells : s'.queue.cells = s.queue.cells ++ [({} : CapturedOutput)])
    (hhandles : s'.handles = (h.holdersAfter op).map fun x =>
      ⟨x.task, x.share.map (numbers ++ [h.length]).idxOf⟩)
    (hshare : ∀ x ∈ h.holdersAfter op, ∀ k, x.share = some k → k ∈ numbers ++ [h.length]) :
    Reflects (numbers ++ [h.length]) s' (h.record op) where
  handles_eq := hhandles
  cells_eq := by
    have hcapture : (h.record op).capture = h.capture :=
      funext fun k => h.capture_record_of_ne op k (by simp [hop])
    rw [hcells, hs.cells_eq, hcapture, List.map_append, List.map_singleton, hs.capture_length]
  nodup := List.nodup_append.2 ⟨hs.nodup, by simp, by
    rintro k hk _ hlast rfl
    exact hs.length_not_mem (List.mem_singleton.1 hlast ▸ hk)⟩
  lt_length k hk := by
    rw [List.mem_append, List.mem_singleton] at hk
    obtain hk | rfl := hk
    · exact Nat.lt_succ_of_lt (hs.lt_length k hk)
    · exact Nat.lt_succ_self _
  share_mem := hshare
  said_mem r hr k hk :=
    List.mem_append_left _ (hs.said_mem r (by simpa [EmitterHistory.record, hop] using hr) k hk)

/-- The cells of the other handles stay where they are. -/
lemma Reflects.idxOf_append (hs : Reflects numbers s h) {x : Holder} (hx : x ∈ h.holders) :
    x.share.map (numbers ++ [h.length]).idxOf = x.share.map numbers.idxOf := by
  cases hshare : x.share with
  | none => rfl
  | some k => exact congrArg some (List.idxOf_append_of_mem (hs.share_mem x hx k hshare))

/-- The number of the next operation stands for the next cell. -/
lemma Reflects.idxOf_length (hs : Reflects numbers s h) :
    (numbers ++ [h.length]).idxOf h.length = s.queue.cells.length := by
  rw [List.idxOf_append_of_notMem hs.length_not_mem, hs.cells_eq, List.length_map]
  simp

/-- The handle of an emitter is told by its holder. -/
lemma Reflects.getElem?_handles (hs : Reflects numbers s h) (i : Nat) :
    s.handles[i]? = h.holders[i]?.map fun x => ⟨x.task, x.share.map numbers.idxOf⟩ := by
  rw [hs.handles_eq, List.getElem?_map]

/-- A handle is made of another one. -/
lemma Reflects.copied (hs : Reflects numbers s h) (i : Nat) {s' : EmitterFamily} {op : Operation}
    (hop : h.remarkOf op = none) (hcells : s'.queue.cells = s.queue.cells)
    (hhandles : s'.handles = s.handles ++ s.handles[i]?.toList)
    (hholders : h.holdersAfter op = h.holders ++ h.holders[i]?.toList) :
    Reflects numbers s' (h.record op) := by
  refine hs.of_quiet hop hcells ?_ ?_
  · rw [hhandles, hholders, hs.getElem?_handles, hs.handles_eq, List.map_append]
    cases h.holders[i]? <;> rfl
  · rw [hholders]
    intro x hx
    obtain hx | hx := List.mem_append.1 hx
    · exact hs.share_mem x hx
    · exact hs.share_mem x (List.mem_of_getElem? (Option.mem_toList.1 hx))

/-- A new handle that does not capture. -/
lemma Reflects.created (hs : Reflects numbers s h) (task : TaskId) :
    Reflects numbers (s.perform (.create task false)) (h.record (.create task false)) := by
  refine hs.of_quiet rfl rfl ?_ ?_
  · show s.handles ++ [_] = (h.holders ++ [_]).map _
    rw [hs.handles_eq, List.map_append]
    rfl
  · intro x hx k hk
    obtain hx | hx := List.mem_append.1 hx
    · exact hs.share_mem x hx k hk
    · rw [List.mem_singleton.1 hx] at hk
      cases hk

/-- A new handle that captures gets the next cell. -/
lemma Reflects.created_capturing (hs : Reflects numbers s h) (task : TaskId) :
    Reflects (numbers ++ [h.length]) (s.perform (.create task true))
      (h.record (.create task true)) := by
  refine hs.of_capture rfl rfl ?_ ?_
  · show s.handles ++ [_] = (h.holders ++ [_]).map _
    rw [hs.handles_eq, List.map_append, List.map_singleton]
    exact congrArg₂ _ (List.map_congr_left fun x hx => by rw [hs.idxOf_append hx])
      (congrArg (fun i => [Emitter.mk task (some i)]) hs.idxOf_length.symm)
  · intro x hx k hk
    obtain hx | hx := List.mem_append.1 hx
    · exact List.mem_append_left _ (hs.share_mem x hx k hk)
    · rw [List.mem_singleton.1 hx] at hk
      cases hk
      simp

/-- What is done to a handle that there is not changes nothing. -/
lemma Reflects.absent (hs : Reflects numbers s h) {op : Operation} (hperform : s.perform op = s)
    (hop : h.remarkOf op = none) (hholders : h.holdersAfter op = h.holders) :
    Reflects numbers (s.perform op) (h.record op) := by
  rw [hperform]
  exact hs.of_quiet hop rfl (hholders ▸ hs.handles_eq) (hholders ▸ hs.share_mem)

/-- A handle that begins to capture gets the next cell, whatever it had before. -/
lemma Reflects.recapturing (hs : Reflects numbers s h) {i : Nat} {x : Holder}
    (hx : h.holders[i]? = some x) :
    Reflects (numbers ++ [h.length]) (s.perform (.withCapture i)) (h.record (.withCapture i)) := by
  have hhandle := hs.getElem?_handles i
  rw [hx] at hhandle
  have hset : h.holdersAfter (.withCapture i) =
      h.holders.set i { x with share := some h.length } := by
    rw [EmitterHistory.holdersAfter, List.modify_eq_set_getElem?, hx]
    rfl
  refine hs.of_capture rfl ?_ ?_ ?_
  · rw [EmitterFamily.perform, hhandle]
    rfl
  · have hothers : s.handles = h.holders.map fun x =>
        ⟨x.task, x.share.map (numbers ++ [h.length]).idxOf⟩ :=
      hs.handles_eq.trans (List.map_congr_left fun x hx => by rw [hs.idxOf_append hx])
    rw [EmitterFamily.perform, hhandle, hset, List.map_set, ← hothers]
    exact congrArg (fun c => s.handles.set i ⟨x.task, some c⟩) hs.idxOf_length.symm
  · rw [hset]
    intro x' hx' k hk
    obtain hx' | rfl := List.mem_or_eq_of_mem_set hx'
    · exact List.mem_append_left _ (hs.share_mem x' hx' k hk)
    · obtain rfl := Option.some_inj.1 hk
      simp

/-- What is done through a handle reaches its cell. -/
lemma Reflects.through (hs : Reflects numbers s h) {i : Nat} {x : Holder}
    (hx : h.holders[i]? = some x) (r : Remark) :
    Reflects numbers (s.perform (.through i r)) (h.record (.through i r)) := by
  have hhandle := hs.getElem?_handles i
  rw [hx] at hhandle
  have hop : h.remarkOf (.through i r) = some (x, r) := by simp [EmitterHistory.remarkOf, hx]
  have hmem := List.mem_of_getElem? hx
  refine ⟨?_, ?_, hs.nodup, fun k hk => Nat.lt_succ_of_lt (hs.lt_length k hk), hs.share_mem, ?_⟩
  · rw [EmitterFamily.perform, hhandle]
    exact hs.handles_eq
  · rw [EmitterFamily.perform, hhandle]
    exact hs.cells_through hmem hop
  · intro r' hr'
    rw [EmitterHistory.record, hop] at hr'
    obtain hr' | hr' := List.mem_append.1 hr'
    · exact hs.said_mem r' hr'
    · rw [List.mem_singleton.1 hr']
      exact hs.share_mem x hmem

/-- **An operation keeps cells and history in step.** -/
lemma Reflects.perform (hs : Reflects numbers s h) (op : Operation) :
    ∃ numbers', Reflects numbers' (s.perform op) (h.record op) := by
  cases op with
  | clone i => exact ⟨_, hs.copied i rfl rfl rfl rfl⟩
  | logger i => exact ⟨_, hs.copied i rfl rfl rfl rfl⟩
  | receive => exact ⟨_, hs.of_quiet rfl rfl hs.handles_eq hs.share_mem⟩
  | dropReceiver => exact ⟨_, hs.of_quiet rfl rfl hs.handles_eq hs.share_mem⟩
  | create task capturing =>
    cases capturing with
    | false => exact ⟨_, hs.created task⟩
    | true => exact ⟨_, hs.created_capturing task⟩
  | withCapture i =>
    have hhandle := hs.getElem?_handles i
    cases hx : h.holders[i]? with
    | none =>
      rw [hx] at hhandle
      refine ⟨_, hs.absent ?_ rfl (List.modify_eq_self (List.getElem?_eq_none_iff.1 hx))⟩
      rw [EmitterFamily.perform, hhandle]
      rfl
    | some x => exact ⟨_, hs.recapturing hx⟩
  | through i r =>
    have hhandle := hs.getElem?_handles i
    cases hx : h.holders[i]? with
    | none =>
      rw [hx] at hhandle
      refine ⟨_, hs.absent ?_ (by simp [EmitterHistory.remarkOf, hx]) rfl⟩
      rw [EmitterFamily.perform, hhandle]
      rfl
    | some x => exact ⟨_, hs.through hx r⟩

/-- After any operations, the cells hold what the history tells. -/
lemma exists_reflects_run (operations : List Operation) :
    ∃ numbers, Reflects numbers (run operations) (.of operations) := by
  induction operations using List.reverseRecOn with
  | nil => exact ⟨[], reflects_empty⟩
  | append_singleton operations op ih =>
    obtain ⟨numbers, hs⟩ := ih
    rw [run, EmitterHistory.of, List.foldl_append, List.foldl_append]
    exact hs.perform op

/-- **What a handle has captured** are the lines since the last reset, if it shares a number. -/
lemma Reflects.captured_eq (hs : Reflects numbers s h) {e : Emitter} {x : Holder}
    (hx : x ∈ h.holders) (he : e = ⟨x.task, x.share.map numbers.idxOf⟩) :
    s.queue.captured e = x.share.elim {} h.capture := by
  rw [he]
  cases hshare : x.share with
  | none => rfl
  | some k =>
    have hk := hs.share_mem x hx k hshare
    show (s.queue.cells[numbers.idxOf k]?).getD {} = h.capture k
    rw [hs.cells_eq, List.getElem?_map, List.getElem?_idxOf hk]
    rfl

/-! ### The queue -/

variable {operations : List Operation}

/-- Without a receiver nothing comes into the queue, and nothing comes out. -/
lemma perform_of_closed (op : Operation) (hclosed : s.queue.isOpen = false)
    (hevents : s.queue.events = []) :
    (s.perform op).queue.isOpen = false ∧ (s.perform op).queue.events = [] ∧
      (s.perform op).received = s.received := by
  cases op with
  | create task capturing => cases capturing <;> exact ⟨hclosed, hevents, rfl⟩
  | clone i => exact ⟨hclosed, hevents, rfl⟩
  | logger i => exact ⟨hclosed, hevents, rfl⟩
  | withCapture i =>
    rw [perform]
    split
    · exact ⟨hclosed, hevents, rfl⟩
    · exact ⟨hclosed, hevents, rfl⟩
  | through i r =>
    rw [perform]
    split
    · refine ⟨(r.isOpen_perform _ _).trans hclosed, ?_, rfl⟩
      rw [r.events_perform, hclosed]
      exact hevents
    · exact ⟨hclosed, hevents, rfl⟩
  | receive =>
    refine ⟨hclosed, rfl, ?_⟩
    show s.received ++ s.queue.events = s.received
    rw [hevents, List.append_nil]
  | dropReceiver => exact ⟨rfl, rfl, rfl⟩

/-- As long as there is a receiver, an operation adds to the events what the history adds. -/
lemma Reflects.perform_of_open (hs : Reflects numbers s h) {op : Operation}
    (hopen : s.queue.isOpen = true) (hop : op ≠ .dropReceiver)
    (hevents : s.received ++ s.queue.events = h.events) :
    (s.perform op).queue.isOpen = true ∧
      (s.perform op).received ++ (s.perform op).queue.events = (h.record op).events := by
  rw [h.events_record, ← hevents]
  cases op with
  | create task capturing => cases capturing <;> exact ⟨hopen, (List.append_nil _).symm⟩
  | clone i => exact ⟨hopen, (List.append_nil _).symm⟩
  | logger i => exact ⟨hopen, (List.append_nil _).symm⟩
  | withCapture i =>
    rw [EmitterFamily.perform]
    split
    · exact ⟨hopen, (List.append_nil _).symm⟩
    · exact ⟨hopen, (List.append_nil _).symm⟩
  | through i r =>
    have hhandle := hs.getElem?_handles i
    cases hx : h.holders[i]? with
    | none =>
      rw [hx] at hhandle
      rw [EmitterFamily.perform, hhandle]
      simp [EmitterHistory.remarkOf, hx, hopen]
    | some x =>
      rw [hx] at hhandle
      rw [EmitterFamily.perform, hhandle]
      refine ⟨(r.isOpen_perform _ _).trans hopen, ?_⟩
      show s.received ++ (r.perform s.queue _).events = _
      rw [r.events_perform, if_pos hopen, List.append_assoc]
      cases hchange : r.change? <;> simp [EmitterHistory.remarkOf, hx, hchange]
  | receive =>
    refine ⟨hopen, ?_⟩
    show s.received ++ s.queue.events ++ [] = _
    exact (List.append_nil _).trans (List.append_nil _).symm
  | dropReceiver => exact (hop rfl).elim

/-- **As long as there is a receiver, every emission arrives**, once and in order. -/
lemma events_run (hopen : .dropReceiver ∉ operations) :
    (run operations).queue.isOpen = true ∧
      (run operations).received ++ (run operations).queue.events =
        (EmitterHistory.of operations).events := by
  induction operations using List.reverseRecOn with
  | nil => exact ⟨rfl, rfl⟩
  | append_singleton operations op ih =>
    rw [List.mem_append, List.mem_singleton, not_or] at hopen
    obtain ⟨numbers, hs⟩ := exists_reflects_run operations
    rw [run, EmitterHistory.of, List.foldl_append, List.foldl_append]
    exact hs.perform_of_open (ih hopen.1).1 (Ne.symm hopen.2) (ih hopen.1).2

/-- **Nothing arrives any more when the receiver is gone**, and nothing is left in the queue. -/
lemma events_run_of_dropped (before after : List Operation) :
    (run (before ++ .dropReceiver :: after)).queue.isOpen = false ∧
      (run (before ++ .dropReceiver :: after)).queue.events = [] ∧
      (run (before ++ .dropReceiver :: after)).received = (run before).received := by
  induction after using List.reverseRecOn with
  | nil =>
    rw [run, List.foldl_append]
    exact ⟨rfl, rfl, rfl⟩
  | append_singleton after op ih =>
    obtain ⟨hclosed, hevents, hreceived⟩ := ih
    rw [← List.cons_append, ← List.append_assoc, run, List.foldl_append]
    obtain ⟨hclosed', hevents', hreceived'⟩ := perform_of_closed op hclosed hevents
    exact ⟨hclosed', hevents', hreceived'.trans hreceived⟩

/-! ### All of it -/

/-- A capture has the lines since its last reset, stream by stream. -/
lemma lines_capture (h : EmitterHistory) (k : Nat) (s : Stream) :
    (h.capture k).lines s = h.linesSinceReset k s := by
  cases s <;> rfl

/-- A history is as long as the operations. -/
lemma length_of (operations : List Operation) :
    (EmitterHistory.of operations).length = operations.length := by
  induction operations using List.reverseRecOn with
  | nil => rfl
  | append_singleton operations op ih =>
    rw [EmitterHistory.of, List.foldl_append, List.length_append]
    exact congrArg (· + 1) ih

/-- **Emitters and loggers of one queue share what they capture, and all they emit arrives.** After
any operations on them, and as long as there is a receiver, what it has got and what is in the queue
are all emissions in their order, each once and with the task of its handle. When the receiver is
gone, nothing arrives and nothing else fails. A handle that captures has on each stream the lines
that were put out, since the last reset, through any of the handles that share with it; one that
does not has nothing. Handles share if one was made of the other and neither has begun to capture
anew since: the number that stands for it is the place of that operation.

**Proof sketch.** Every operation keeps the cells and the history in step, so what is in a cell is
what the history tells of its number. The queue does not depend on the cells at all. -/
theorem emitters_share_what_they_capture (operations : List Operation) :
    (run operations).handles.map (·.task) =
      (EmitterHistory.of operations).holders.map (·.task) ∧
    (.dropReceiver ∉ operations → (run operations).received ++ (run operations).queue.events =
      (EmitterHistory.of operations).events) ∧
    (∀ before after, operations = before ++ .dropReceiver :: after →
      (run operations).queue.events = [] ∧ (run operations).received = (run before).received) ∧
    (∀ x ∈ (EmitterHistory.of operations).holders, ∀ k, x.share = some k →
      k < operations.length) ∧
    ∀ (i : Nat) (e : Emitter) (x : Holder), (run operations).handles[i]? = some e →
      (EmitterHistory.of operations).holders[i]? = some x →
        (x.share = none → (run operations).queue.captured e = {}) ∧
        ∀ k, x.share = some k → ∀ s, ((run operations).queue.captured e).lines s =
          (EmitterHistory.of operations).linesSinceReset k s := by
  obtain ⟨numbers, hs⟩ := exists_reflects_run operations
  refine ⟨?_, fun hopen => (events_run hopen).2, ?_, fun x hx k hk => ?_, fun i e x he hx => ?_⟩
  · rw [hs.handles_eq, List.map_map]
    rfl
  · rintro before after rfl
    exact (events_run_of_dropped before after).2
  · exact length_of operations ▸ hs.lt_length k (hs.share_mem x hx k hk)
  · rw [hs.getElem?_handles, hx] at he
    have hcaptured := hs.captured_eq (List.mem_of_getElem? hx) (Option.some_inj.1 he).symm
    refine ⟨fun hshare => ?_, fun k hshare s => ?_⟩
    · rw [hcaptured, hshare]
      rfl
    · rw [hcaptured, hshare]
      exact lines_capture _ k s

/-- A logger outlives the capture that it was made of, and the receiver. -/
def parting : List Operation :=
  [.create ⟨"t"⟩ true, .logger 0, .through 1 (.line .stdout "one"), .withCapture 0,
    .through 0 (.line .stdout "two"), .receive, .dropReceiver, .through 1 (.line .stdout "three"),
    .through 0 .reset]

/-- The logger keeps its lines, the emitter has begun anew, and the receiver has got two lines. -/
theorem parting_is_captured :
    ((run parting).queue.captured ⟨⟨"t"⟩, some 0⟩).lines .stdout = ["one", "three"] ∧
    ((run parting).queue.captured ⟨⟨"t"⟩, some 1⟩).lines .stdout = [] ∧
    (run parting).queue.events = [] ∧
    (run parting).received =
      [⟨⟨"t"⟩, .output .stdout "one"⟩, ⟨⟨"t"⟩, .output .stdout "two"⟩] := by
  obtain ⟨-, -, hdropped, -, hcaptured⟩ := emitters_share_what_they_capture parting
  obtain ⟨hevents, hreceived⟩ := hdropped (parting.take 6) (parting.drop 7) rfl
  exact ⟨(hcaptured 1 _ ⟨⟨"t"⟩, some 0⟩ rfl rfl).2 0 rfl .stdout,
    (hcaptured 0 _ ⟨⟨"t"⟩, some 3⟩ rfl rfl).2 3 rfl .stdout, hevents, hreceived.trans rfl⟩

end EmitterFamily

end Taskflow
