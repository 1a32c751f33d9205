import Mathlib.Data.List.Induction
import Taskflow.Proofs.State.Coordinator
set_option autoImplicit false

/-!
# What a coordinator publishes

Whatever the order in which events are sent and the two sources of a coordinator are served, its
snapshots are the states after longer and longer first parts of the events. Only the last snapshot
may repeat the one before it, and it is the state after all of them.

## Main definitions

* `Coordinator.Service`, `Coordinator.serveAll` — everything that can happen to a coordinator.
* `Coordinator.sent`, `Coordinator.Orderly` — the events in their order; nothing is sent to a
  closed queue.
* `Coordinator.queued` — a new coordinator with events in its queue.
* `Coordinator.stateAt` — the state after the first `n` events.
* `Coordinator.Publishes` — where in the events a coordinator stands and where it published.

## Main results

* `Coordinator.Publishes.serve`, `Coordinator.publishes_serveAll` — the invariant of one step and
  of all of them.
* `Coordinator.isDone_serveAll_iff` — how often the queue has to be served after its end.
* `Coordinator.refines_fold` — the snapshots of a coordinator, and its end.
-/

namespace Taskflow

namespace Coordinator

/-- Everything that can happen to a coordinator. -/
inductive Service where
  /-- an event is sent -/
  | send (e : TaskEvent)
  /-- whoever could send is gone -/
  | close
  /-- the queue is served -/
  | receive (now : Nat)
  /-- the ticker is served -/
  | tick (now : Nat)
  deriving Repr, DecidableEq

namespace Service

/-- The event that is sent. -/
def event? : Service → Option TaskEvent
  | .send e => some e
  | .close | .receive _ | .tick _ => none

/-- Whether the queue is served. -/
def isReceive : Service → Bool
  | .receive _ => true
  | .send _ | .close | .tick _ => false

end Service

/-- One thing happens to a coordinator. -/
def serve (c : Coordinator) : Service → Coordinator
  | .send e => c.send e
  | .close => c.close
  | .receive now => c.receive now
  | .tick now => c.tick now

/-- One thing happens after the other. -/
def serveAll (c : Coordinator) (services : List Service) : Coordinator := services.foldl serve c

/-- The events in the order in which they are sent. -/
def sent (services : List Service) : List TaskEvent := services.filterMap Service.event?

/-- Nothing is sent to a closed queue. -/
def Orderly (services : List Service) : Prop :=
  services.Pairwise fun a b => a = .close → b.event? = none

instance (services : List Service) : Decidable (Orderly services) :=
  inferInstanceAs (Decidable (services.Pairwise fun a b => a = .close → b.event? = none))

/-- A coordinator that starts at time `now` when `queue` is in its queue already. -/
def queued (queue : List TaskEvent) (interval now : Nat) (slot : Slot) : Coordinator :=
  { start interval now slot with pending := queue.toArray }

/-- The state after the first `n` events. -/
def stateAt (events : List TaskEvent) (n : Nat) : SystemState :=
  SystemState.empty.fold (events.take n)

/-- Of `events`, the coordinator has taken the first `taken`, and it has published the states after
the numbers of events in `marks`, latest first. The marks fall strictly, but for the one of the end,
and they lie below what was taken if that has changed since. Before the queue was served for the
first time it held `least` events or more, so that nothing is published before they, or a full batch
of them, were taken. -/
structure Publishes (least : Nat) (events : List TaskEvent) (taken : Nat) (marks : List Nat)
    (c : Coordinator) : Prop where
  taken_le : taken ≤ events.length
  pending_eq : c.pending.toList = events.drop taken
  state_eq : c.state = stateAt events taken
  published_eq : c.published.map (·.state) = marks.map (stateAt events)
  mark_le : ∀ n ∈ marks, n ≤ taken
  of_dirty : c.dirty = true → 0 < taken ∧ ∀ n ∈ marks, n < taken
  of_not_isDone : c.isDone = false → marks.Pairwise (· > ·)
  of_isDone : c.isDone = true → c.isClosed = true ∧ taken = events.length ∧
    ∃ earlier, marks = taken :: earlier ∧ earlier.Pairwise (· > ·)
  least_le_taken : (taken = 0 ∧ least ≤ events.length) ∨ min batchSize least ≤ taken
  least_le_mark : ∀ n ∈ marks, min batchSize least ≤ n

variable {c : Coordinator} {least taken : Nat} {events : List TaskEvent} {marks : List Nat}
  {services : List Service}

/-! ### One step -/

/-- More events do not change the state after those that were there. -/
lemma stateAt_append {n : Nat} (hn : n ≤ events.length) (more : List TaskEvent) :
    stateAt (events ++ more) n = stateAt events n := by
  rw [stateAt, stateAt, List.take_append_of_le_length hn]

namespace Publishes

/-- A new coordinator has taken and published nothing. -/
protected lemma queued (queue : List TaskEvent) (interval now : Nat) (slot : Slot) :
    Publishes queue.length queue 0 [] (queued queue interval now slot) where
  taken_le := Nat.zero_le _
  pending_eq := rfl
  state_eq := rfl
  published_eq := rfl
  mark_le := by simp
  of_dirty := by simp [Coordinator.queued, Coordinator.start]
  of_not_isDone := fun _ => List.Pairwise.nil
  of_isDone := by simp [Coordinator.queued, Coordinator.start]
  least_le_taken := .inl ⟨rfl, Nat.le_refl _⟩
  least_le_mark := by simp

/-- When the ticker ticks next does not matter. -/
lemma schedule (h : Publishes least events taken marks c) (due : Nat) :
    Publishes least events taken marks { c with nextTick := due } where
  taken_le := h.taken_le
  pending_eq := h.pending_eq
  state_eq := h.state_eq
  published_eq := h.published_eq
  mark_le := h.mark_le
  of_dirty := h.of_dirty
  of_not_isDone := h.of_not_isDone
  of_isDone := h.of_isDone
  least_le_taken := h.least_le_taken
  least_le_mark := h.least_le_mark

/-- What is sent is one more event to be taken. -/
lemma send (h : Publishes least events taken marks c) (hopen : c.isDone = false) (e : TaskEvent) :
    Publishes least (events ++ [e]) taken marks (c.send e) where
  taken_le := by
    have hle := h.taken_le
    rw [List.length_append]
    omega
  pending_eq := by
    rw [List.drop_append_of_le_length h.taken_le, ← h.pending_eq]
    exact Array.toList_push
  state_eq := by
    rw [stateAt_append h.taken_le, ← h.state_eq]
    rfl
  published_eq := by
    have hsame : ∀ n ∈ marks, stateAt (events ++ [e]) n = stateAt events n := fun n hn =>
      stateAt_append (Nat.le_trans (h.mark_le n hn) h.taken_le) [e]
    rw [List.map_congr_left hsame, ← h.published_eq]
    rfl
  mark_le := h.mark_le
  of_dirty := h.of_dirty
  of_not_isDone := h.of_not_isDone
  of_isDone := fun hd => by
    rw [show (c.send e).isDone = c.isDone from rfl, hopen] at hd
    cases hd
  least_le_taken := by
    rw [List.length_append]
    rcases h.least_le_taken with ⟨h0, hle⟩ | hle
    · exact .inl ⟨h0, by omega⟩
    · exact .inr hle
  least_le_mark := h.least_le_mark

/-- Closing the queue publishes nothing. -/
lemma close (h : Publishes least events taken marks c) :
    Publishes least events taken marks c.close where
  taken_le := h.taken_le
  pending_eq := h.pending_eq
  state_eq := h.state_eq
  published_eq := h.published_eq
  mark_le := h.mark_le
  of_dirty := h.of_dirty
  of_not_isDone := h.of_not_isDone
  of_isDone := fun hd => ⟨rfl, (h.of_isDone hd).2⟩
  least_le_taken := h.least_le_taken
  least_le_mark := h.least_le_mark

/-- The queue is not empty, so a batch moves on. -/
lemma takeBatch (h : Publishes least events taken marks c) (hopen : c.isDone = false)
    (hpending : c.pending.isEmpty = false) :
    Publishes least events (min (taken + batchSize) events.length) marks c.takeBatch := by
  have hle := h.taken_le
  have hlt : taken < events.length := by
    by_contra hge
    have hnone : c.pending.toList = [] := by
      rw [h.pending_eq, List.drop_eq_nil_of_le (by omega)]
    rw [Array.toList_eq_nil_iff.1 hnone] at hpending
    cases hpending
  have hmarks : ∀ n ∈ marks, n < min (taken + batchSize) events.length := by
    intro n hn
    have hmark := h.mark_le n hn
    have hbatch : 0 < batchSize := by decide
    omega
  refine
    { taken_le := Nat.min_le_right _ _
      pending_eq := ?_
      state_eq := ?_
      published_eq := by rw [takeBatch_published, h.published_eq]
      mark_le := fun n hn => Nat.le_of_lt (hmarks n hn)
      of_dirty := fun _ => ⟨?_, hmarks⟩
      of_not_isDone := fun _ => h.of_not_isDone hopen
      of_isDone := fun hd => ?_
      least_le_taken := .inr ?_
      least_le_mark := h.least_le_mark }
  · rw [toList_pending_takeBatch, h.pending_eq, List.drop_drop]
    rcases Nat.le_total (taken + batchSize) events.length with hfits | hfits
    · rw [Nat.min_eq_left hfits]
    · rw [Nat.min_eq_right hfits, List.drop_eq_nil_of_le hfits, List.drop_length]
  · simp only [Coordinator.takeBatch]
    rw [h.pending_eq, h.state_eq, stateAt, ← SystemState.fold_append, ← List.take_add, stateAt,
      List.take_eq_take_min]
  · have hbatch : 0 < batchSize := by decide
    omega
  · rw [takeBatch_isDone, hopen] at hd
    cases hd
  · rcases h.least_le_taken with ⟨h0, hleast⟩ | hleast <;> omega

/-- What has changed is published. -/
lemma publish (h : Publishes least events taken marks c) (hopen : c.isDone = false)
    (hdirty : c.dirty = true) (now : Nat) :
    Publishes least events taken (taken :: marks) (c.publish now) where
  taken_le := h.taken_le
  pending_eq := h.pending_eq
  state_eq := h.state_eq
  published_eq := by
    rw [List.map_cons, ← h.published_eq, ← h.state_eq]
    rfl
  mark_le := by
    intro n hn
    rcases List.mem_cons.1 hn with rfl | hn
    · exact Nat.le_refl _
    · exact h.mark_le n hn
  of_dirty := fun hd => by cases hd
  of_not_isDone := fun _ =>
    List.pairwise_cons.2 ⟨(h.of_dirty hdirty).2, h.of_not_isDone hopen⟩
  of_isDone := fun hd => by
    rw [show (c.publish now).isDone = c.isDone from rfl, hopen] at hd
    cases hd
  least_le_taken := h.least_le_taken
  least_le_mark := by
    intro n hn
    rcases List.mem_cons.1 hn with rfl | hn
    · have hpos := (h.of_dirty hdirty).1
      rcases h.least_le_taken with ⟨h0, -⟩ | hleast
      · omega
      · exact hleast
    · exact h.least_le_mark n hn

/-- The end of the queue: the last snapshot is published, whether or not anything has changed. -/
lemma finish (h : Publishes least events taken marks c) (hopen : c.isDone = false)
    (hclosed : c.isClosed = true) (hpending : c.pending.isEmpty = true) (now : Nat) :
    Publishes least events taken (taken :: marks) { c.publish now with isDone := true } := by
  have hall : taken = events.length := by
    have hnone : events.drop taken = [] := by
      rw [← h.pending_eq, Array.isEmpty_iff.1 hpending]
    exact Nat.le_antisymm h.taken_le (List.drop_eq_nil_iff.1 hnone)
  refine
    { taken_le := h.taken_le
      pending_eq := h.pending_eq
      state_eq := h.state_eq
      published_eq := ?_
      mark_le := fun n hn => ?_
      of_dirty := fun hd => by cases hd
      of_not_isDone := fun hd => by cases hd
      of_isDone := fun _ => ⟨hclosed, hall, marks, rfl, h.of_not_isDone hopen⟩
      least_le_taken := h.least_le_taken
      least_le_mark := fun n hn => ?_ }
  · rw [List.map_cons, ← h.published_eq, ← h.state_eq]
    rfl
  · rcases List.mem_cons.1 hn with rfl | hn
    · exact Nat.le_refl _
    · exact h.mark_le n hn
  · rcases List.mem_cons.1 hn with rfl | hn
    · rcases h.least_le_taken with ⟨h0, hleast⟩ | hleast
      · omega
      · exact hleast
    · exact h.least_le_mark n hn

/-- What is received is taken from the queue, and may be published in the end. -/
lemma receive (h : Publishes least events taken marks c) (now : Nat) :
    ∃ taken' marks', Publishes least events taken' marks' (c.receive now) := by
  rcases receive_effect c now with
    ⟨-, heq⟩ | ⟨hopen, hpending, hclosed, heq⟩ | ⟨hopen, hpending, -, heq⟩ |
    ⟨hopen, hpending, -, heq⟩
  · rw [heq]
    exact ⟨taken, marks, h⟩
  · rw [heq]
    exact ⟨taken, taken :: marks, h.finish hopen hclosed hpending now⟩
  · have hstill : c.takeBatch.isDone = false := by rw [takeBatch_isDone, hopen]
    rw [heq]
    exact ⟨_, _, ((h.takeBatch hopen hpending).publish hstill (takeBatch_dirty c) now).schedule _⟩
  · rw [heq]
    exact ⟨_, marks, h.takeBatch hopen hpending⟩

/-- A tick may publish what was taken. -/
lemma tick (h : Publishes least events taken marks c) (now : Nat) :
    ∃ marks', Publishes least events taken marks' (c.tick now) := by
  unfold Coordinator.tick
  split
  next => exact ⟨marks, h⟩
  next hopen =>
    have hopen : c.isDone = false := by
      rw [not_or] at hopen
      simpa using hopen.1
    simp only
    generalize (if c.nextTick + tickTolerance < now then now else c.nextTick) + c.interval = due
    have hnext := h.schedule due
    split
    next hdirty => exact ⟨taken :: marks, hnext.publish hopen hdirty now⟩
    next => exact ⟨marks, hnext⟩

/-- A coordinator tracks the events of which it publishes first parts. -/
lemma tracks (h : Publishes least events taken marks c) : Tracks events c where
  state_eq := by
    refine ⟨events.take taken, ?_, h.state_eq, fun s hs => ?_⟩
    · rw [h.pending_eq, List.take_append_drop]
    · have hmem : s.state ∈ marks.map (stateAt events) := by
        rw [← h.published_eq]
        exact List.mem_map_of_mem hs
      obtain ⟨n, hn, hstate⟩ := List.mem_map.1 hmem
      exact ⟨events.take n, List.take_prefix_take_left (h.mark_le n hn), hstate.symm⟩
  of_isDone := fun hd => by
    obtain ⟨hclosed, hall, -⟩ := h.of_isDone hd
    have hnone := h.pending_eq
    rw [hall, List.drop_length] at hnone
    exact ⟨hclosed, Array.toList_eq_nil_iff.1 hnone⟩

/-- **Whatever happens to a coordinator keeps its marks in order.** -/
lemma serve (h : Publishes least events taken marks c) (s : Service)
    (hs : s.event?.isSome = true → c.isDone = false) :
    ∃ taken' marks', Publishes least (events ++ s.event?.toList) taken' marks' (c.serve s) := by
  cases s with
  | send e => exact ⟨taken, marks, h.send (hs rfl) e⟩
  | close => exact ⟨taken, marks, (List.append_nil events).symm ▸ h.close⟩
  | receive now => exact (List.append_nil events).symm ▸ h.receive now
  | tick now =>
    obtain ⟨marks', h'⟩ := h.tick now
    exact ⟨taken, marks', (List.append_nil events).symm ▸ h'⟩

end Publishes

/-! ### The end -/

/-- The queue of a coordinator that is not done is served: either a batch is taken, or the end of
the queue is noticed, or there is nothing to do. -/
lemma receive_cases (hopen : c.isDone = false) (now : Nat) :
    (c.pending.isEmpty = false ∧ (c.receive now).isDone = false ∧
      (c.receive now).pending = c.takeBatch.pending) ∨
    (c.pending.isEmpty = true ∧ c.isClosed = true ∧
      c.receive now = { c.publish now with isDone := true }) ∨
    (c.pending.isEmpty = true ∧ c.isClosed = false ∧ c.receive now = c) := by
  rcases receive_effect c now with
    ⟨hidle, heq⟩ | ⟨-, hpending, hclosed, heq⟩ | ⟨-, hpending, -, heq⟩ | ⟨-, hpending, -, heq⟩
  · have hnone : c.pending.isEmpty = true ∧ c.isClosed = false := by
      simpa [hasInput, hopen] using hidle
    exact .inr (.inr ⟨hnone.1, hnone.2, heq⟩)
  · exact .inr (.inl ⟨hpending, hclosed, heq⟩)
  · refine .inl ⟨hpending, ?_, ?_⟩
    · rw [heq]
      simp only [Coordinator.publish, takeBatch_isDone, hopen]
    · rw [heq]
      simp only [Coordinator.publish]
  · rw [heq]
    exact .inl ⟨hpending, (takeBatch_isDone c).trans hopen, rfl⟩

/-- Nothing is published, taken or lost once a coordinator is done. -/
lemma serve_of_isDone (hd : c.isDone = true) {s : Service} (hs : s.event? = none) :
    (c.serve s).isDone = true ∧ (c.serve s).state = c.state ∧
      (c.serve s).published = c.published ∧ (c.serve s).slot = c.slot := by
  cases s with
  | send e => cases hs
  | close => exact ⟨hd, rfl, rfl, rfl⟩
  | receive now =>
    have hsame : c.serve (.receive now) = c := if_pos hd
    rw [hsame]
    exact ⟨hd, rfl, rfl, rfl⟩
  | tick now =>
    have hsame : c.serve (.tick now) = c := if_pos (.inl hd)
    rw [hsame]
    exact ⟨hd, rfl, rfl, rfl⟩

/-- A coordinator becomes done when it notices that its queue is closed and empty. -/
lemma serve_of_isDone_serve {s : Service} (hopen : c.isDone = false)
    (hd : (c.serve s).isDone = true) :
    ∃ now, s = .receive now ∧ c.pending.isEmpty = true ∧ c.isClosed = true ∧
      c.serve s = { c.publish now with isDone := true } := by
  cases s with
  | send e => exact absurd hd (by simp [serve, Coordinator.send, hopen])
  | close => exact absurd hd (by simp [serve, Coordinator.close, hopen])
  | tick now => exact absurd hd (by simp [serve, hopen])
  | receive now =>
    rcases receive_cases hopen now with ⟨-, hstill, -⟩ | ⟨hp, hc, hend⟩ | ⟨-, -, hsame⟩
    · exact absurd hd (by simp [serve, hstill])
    · exact ⟨now, rfl, hp, hc, hend⟩
    · exact absurd hd (by simp [serve, hsame, hopen])

/-! ### Whole runs -/

/-- The last service comes last. -/
@[simp] lemma serveAll_concat (c : Coordinator) (services : List Service) (s : Service) :
    c.serveAll (services ++ [s]) = (c.serveAll services).serve s := by
  simp [serveAll]

/-- More services come after the first ones. -/
lemma serveAll_append (c : Coordinator) (services more : List Service) :
    c.serveAll (services ++ more) = (c.serveAll services).serveAll more := List.foldl_append

/-- The last service sends last. -/
@[simp] lemma sent_concat (services : List Service) (s : Service) :
    sent (services ++ [s]) = sent services ++ s.event?.toList := by
  rw [sent, List.filterMap_append]
  cases h : s.event? <;> simp [sent, h]

/-- The last service may send if the queue was not closed before. -/
lemma orderly_concat {s : Service} : Orderly (services ++ [s]) ↔
    Orderly services ∧ (.close ∈ services → s.event? = none) := by
  rw [Orderly, List.pairwise_append]
  constructor
  · rintro ⟨h, -, hlast⟩
    exact ⟨h, fun hc => hlast _ hc s (List.mem_singleton_self s) rfl⟩
  · rintro ⟨h, hlast⟩
    refine ⟨h, List.pairwise_singleton _ _, fun a ha b hb hclose => ?_⟩
    rw [List.mem_singleton.1 hb]
    exact hlast (hclose ▸ ha)

/-- A queue is closed by closing it. -/
lemma isClosed_serveAll (c : Coordinator) (services : List Service) :
    (c.serveAll services).isClosed = true ↔ c.isClosed = true ∨ .close ∈ services := by
  induction services using List.reverseRecOn with
  | nil => simp [serveAll]
  | append_singleton before s ih =>
    rw [serveAll_concat, List.mem_append, List.mem_singleton, ← or_assoc, ← ih]
    cases s with
    | send e => simp [serve, Coordinator.send]
    | close => simp [serve, Coordinator.close]
    | receive now => simp [serve]
    | tick now => simp [serve]

/-- **Whatever happens to a coordinator whose queue is open keeps its marks in order.** -/
lemma publishes_serveAll (h : Publishes least events taken marks c) (hopen : c.isClosed = false)
    (hs : Orderly services) : ∃ taken' marks',
      Publishes least (events ++ sent services) taken' marks' (c.serveAll services) := by
  induction services using List.reverseRecOn with
  | nil => exact ⟨taken, marks, (List.append_nil events).symm ▸ h⟩
  | append_singleton before s ih =>
    obtain ⟨hbefore, hlast⟩ := orderly_concat.1 hs
    obtain ⟨taken', marks', h'⟩ := ih hbefore
    rw [serveAll_concat, sent_concat, ← List.append_assoc]
    refine h'.serve s fun hsends => ?_
    rw [← Bool.not_eq_true]
    intro hd
    have hclosed := (isClosed_serveAll c before).1 (h'.of_isDone hd).1
    rw [hopen] at hclosed
    rw [hlast (hclosed.resolve_left (by simp))] at hsends
    cases hsends

/-- What is done to a coordinator that has become done is its last publication and what does not
matter any more. -/
lemma last_of_isDone (hopen : c.isDone = false) (hclosed : c.isClosed = false)
    (hs : Orderly services) (hd : (c.serveAll services).isDone = true) :
    ∃ before time after, services = before ++ .receive time :: after ∧ .close ∈ before ∧
      (c.serveAll before).isDone = false ∧
      (c.serveAll before).pending.isEmpty = true ∧
      (c.serveAll services).state = (c.serveAll before).state ∧
      (c.serveAll services).published =
        ⟨time, (c.serveAll before).state⟩ :: (c.serveAll before).published ∧
      (c.serveAll services).slot = (c.serveAll before).slot.put (c.serveAll before).state := by
  induction services using List.reverseRecOn with
  | nil => exact absurd hd (by simp [serveAll, hopen])
  | append_singleton start s ih =>
    obtain ⟨hstart, hlast⟩ := orderly_concat.1 hs
    rw [serveAll_concat] at hd ⊢
    cases hbefore : (c.serveAll start).isDone with
    | true =>
      obtain ⟨before, time, after, rfl, hc, hstill, hp, hstate, hpub, hslot⟩ :=
        ih hstart hbefore
      have hnone : s.event? = none := hlast (List.mem_append_left _ hc)
      obtain ⟨-, hstate', hpub', hslot'⟩ := serve_of_isDone hbefore hnone
      refine ⟨before, time, after ++ [s], by simp, hc, hstill, hp, ?_, ?_, ?_⟩
      · rw [hstate', hstate]
      · rw [hpub', hpub]
      · rw [hslot', hslot]
    | false =>
      obtain ⟨time, rfl, hp, hc, hend⟩ := serve_of_isDone_serve hbefore hd
      have hclose := (isClosed_serveAll c start).1 hc
      rw [hclosed] at hclose
      refine ⟨start, time, [], rfl, hclose.resolve_left (by simp), hbefore, hp, ?_, ?_, ?_⟩
      · rw [hend, Coordinator.publish]
      · rw [hend, Coordinator.publish]
      · rw [hend, Coordinator.publish]

/-- Who is done stays so. -/
lemma isDone_serveAll_of_isDone (hd : c.isDone = true)
    (hs : ∀ s ∈ services, Service.event? s = none) : (c.serveAll services).isDone = true := by
  induction services generalizing c with
  | nil => exact hd
  | cons s rest ih =>
    exact ih (serve_of_isDone hd (hs s List.mem_cons_self)).1
      fun s' hs' => hs s' (List.mem_cons_of_mem _ hs')

/-- **A coordinator is done once its closed queue was served often enough**: once for each batch
that is left, and once for the end. -/
theorem isDone_serveAll_iff (hopen : c.isDone = false) (hclosed : c.isClosed = true)
    (hs : ∀ s ∈ services, Service.event? s = none) : (c.serveAll services).isDone = true ↔
      c.pending.size + batchSize ≤ batchSize * services.countP Service.isReceive := by
  induction services generalizing c with
  | nil => simp [serveAll, hopen, batchSize]
  | cons s rest ih =>
    have hrest : ∀ s' ∈ rest, Service.event? s' = none :=
      fun s' hs' => hs s' (List.mem_cons_of_mem _ hs')
    change ((c.serve s).serveAll rest).isDone = true ↔ _
    cases s with
    | send e => cases hs _ List.mem_cons_self
    | close =>
      rw [ih (c := c.serve .close) hopen rfl hrest]
      simp [serve, Coordinator.close, Service.isReceive]
    | tick now =>
      rw [ih (c := c.serve (.tick now)) (by simp [serve, hopen]) (by simp [serve, hclosed]) hrest]
      simp [serve, Service.isReceive]
    | receive now =>
      rw [List.countP_cons_of_pos (by rfl)]
      rcases receive_cases hopen now with ⟨hp, hstill, hleft⟩ | ⟨hp, -, hend⟩ | ⟨-, hc, -⟩
      · have hpos : 0 < c.pending.size := by
          rw [Array.isEmpty_eq_false_iff_exists_mem] at hp
          obtain ⟨e, he⟩ := hp
          exact Array.size_pos_of_mem he
        have hsize : (c.serve (.receive now)).pending.size = c.pending.size - batchSize := by
          have hdrop := congrArg List.length (toList_pending_takeBatch c)
          rw [List.length_drop, Array.length_toList, Array.length_toList] at hdrop
          rw [← hdrop, ← hleft, serve]
        rw [ih (c := c.serve (.receive now)) hstill (by simp [serve, hclosed]) hrest, hsize]
        simp only [batchSize]
        omega
      · have hd : (c.serve (.receive now)).isDone = true := by rw [serve, hend]
        refine iff_of_true (isDone_serveAll_of_isDone hd hrest) ?_
        rw [Array.size_eq_zero_iff.2 (Array.isEmpty_iff.1 hp), Nat.mul_add]
        omega
      · rw [hclosed] at hc
        cases hc

/-- A snapshot goes to the callback and into the slot. -/
lemma serve_publishes (c : Coordinator) (s : Service) :
    ((c.serve s).published = c.published ∧ (c.serve s).slot = c.slot) ∨
    ∃ time, (c.serve s).published = ⟨time, (c.serve s).state⟩ :: c.published ∧
      (c.serve s).slot = c.slot.put (c.serve s).state := by
  cases s with
  | send e => exact .inl ⟨rfl, rfl⟩
  | close => exact .inl ⟨rfl, rfl⟩
  | receive now =>
    have hpub := takeBatch_published c
    have hslot := takeBatch_slot c
    rw [serve]
    rcases receive_effect c now with
      ⟨-, heq⟩ | ⟨-, -, -, heq⟩ | ⟨-, -, -, heq⟩ | ⟨-, -, -, heq⟩
    · rw [heq]
      exact .inl ⟨rfl, rfl⟩
    · rw [heq]
      exact .inr ⟨now, rfl, rfl⟩
    · rw [heq]
      generalize c.takeBatch = b at hpub hslot ⊢
      exact .inr ⟨now, by simp [Coordinator.publish, hpub], by simp [Coordinator.publish, hslot]⟩
    · rw [heq]
      exact .inl ⟨hpub, hslot⟩
  | tick now =>
    simp only [serve, Coordinator.tick]
    split
    · exact .inl ⟨rfl, rfl⟩
    · split
      · exact .inr ⟨now, rfl, rfl⟩
      · exact .inl ⟨rfl, rfl⟩

/-- A tick that is due publishes what has changed. -/
lemma tick_of_dirty (now : Nat) (hopen : c.isDone = false) (hdue : c.nextTick ≤ now)
    (hdirty : c.dirty = true) :
    (c.tick now).published = ⟨now, c.state⟩ :: c.published ∧
      (c.tick now).slot = c.slot.put c.state := by
  unfold Coordinator.tick
  rw [if_neg (by simp [hopen, hdue])]
  simp only [hdirty, if_true]
  exact ⟨rfl, rfl⟩

/-- A new coordinator takes a batch when its queue is served, and publishes it with the first tick,
which is due at once. -/
lemma tick_receive_queued {queue : List TaskEvent} (hqueue : queue ≠ []) (interval now : Nat)
    (slot : Slot) (isClosed : Bool) :
    let c := { queued queue interval now slot with isClosed }
    ((c.receive now).tick now).published = [⟨now, stateAt queue batchSize⟩] ∧
      ((c.receive now).tick now).slot = slot.put (stateAt queue batchSize) := by
  intro c
  have hpending : c.pending.isEmpty = false := by simpa [c, queued] using hqueue
  have hearly : ¬ c.lastPublished + c.interval ≤ now := by
    change ¬ now + max interval 1 ≤ now
    omega
  have hreceive : c.receive now = c.takeBatch := by
    unfold Coordinator.receive
    rw [if_neg (by simp [c, queued, Coordinator.start]), if_neg (by simp [hpending])]
    exact if_neg (by simpa only [Coordinator.takeBatch] using hearly)
  have hstate : c.takeBatch.state = stateAt queue batchSize := by
    simp only [Coordinator.takeBatch]
    rfl
  have htick := tick_of_dirty (c := c.takeBatch) now (takeBatch_isDone c)
    (by simp only [Coordinator.takeBatch]; exact Nat.le_refl now) (takeBatch_dirty c)
  rw [takeBatch_published, takeBatch_slot, hstate] at htick
  rw [hreceive]
  exact htick

/-- **A coordinator refines a plain fold.** Whatever is in the queue at first, whatever is sent and
however the two sources are served: the snapshots are the states after first parts of the events,
each longer than the one before, but for the last; the callback and the slot get the same; and in
the end, which comes when the closed queue was served often enough, one last snapshot is published,
the state after all events.

**Proof sketch.** The invariant `Publishes` of the single steps carries over to all of them, from a
new coordinator on, with the marks as the lengths of the first parts. The last publication is the
step in which the coordinator becomes done. -/
theorem refines_fold (queue : List TaskEvent) (interval now : Nat) (slot : Slot)
    (hs : Orderly services) :
    let c₀ := queued queue interval now slot
    let c := c₀.serveAll services
    let events := queue ++ sent services
    (∃ marks : List Nat,
      c.published.reverse.map (·.state) = marks.map (stateAt events) ∧
      (∀ n ∈ marks, n ≤ events.length) ∧ marks.Pairwise (· ≤ ·) ∧
      (if c.isDone then marks.dropLast else marks).Pairwise (· < ·)) ∧
    (∀ before s after, services = before ++ s :: after →
      let b := c₀.serveAll before
      ((b.serve s).published = b.published ∧ (b.serve s).slot = b.slot) ∨
      ∃ time, (b.serve s).published = ⟨time, (b.serve s).state⟩ :: b.published ∧
        (b.serve s).slot = b.slot.put (b.serve s).state) ∧
    (c.isDone = true → c.state = SystemState.empty.fold events ∧
      ∃ before time after, services = before ++ .receive time :: after ∧ .close ∈ before ∧
        let b := c₀.serveAll before
        b.isDone = false ∧ b.pending = #[] ∧
        c.published = ⟨time, c.state⟩ :: b.published ∧ c.slot = b.slot.put c.state) ∧
    (∀ before after, services = before ++ .close :: after → .close ∉ before →
      (c.isDone = true ↔ (c₀.serveAll before).pending.size + batchSize ≤
        batchSize * after.countP Service.isReceive)) := by
  intro c₀ c events
  have h₀ : Publishes queue.length queue 0 [] c₀ := .queued queue interval now slot
  obtain ⟨taken, marks, h⟩ := publishes_serveAll h₀ rfl hs
  have hsorted : marks.Pairwise (· ≥ ·) := by
    cases hd : c.isDone with
    | true =>
      obtain ⟨-, -, earlier, rfl, hearlier⟩ := h.of_isDone hd
      exact List.pairwise_cons.2
        ⟨fun n hn => h.mark_le n (List.mem_cons_of_mem _ hn), hearlier.imp Nat.le_of_lt⟩
    | false => exact (h.of_not_isDone hd).imp Nat.le_of_lt
  refine ⟨⟨marks.reverse, ?_, fun n hn => ?_, List.pairwise_reverse.2 hsorted, ?_⟩,
    fun before s after _ => serve_publishes _ s, fun hd => ?_, fun before after he hfirst => ?_⟩
  · rw [List.map_reverse, h.published_eq, List.map_reverse]
  · exact Nat.le_trans (h.mark_le n (List.mem_reverse.1 hn)) h.taken_le
  · split
    next hd =>
      obtain ⟨-, -, earlier, rfl, hearlier⟩ := h.of_isDone hd
      rw [List.reverse_cons, List.dropLast_concat]
      exact List.pairwise_reverse.2 hearlier
    next hd => exact List.pairwise_reverse.2 (h.of_not_isDone (by simpa using hd))
  · obtain ⟨before, time, after, he, hc, hstill, hp, hstate, hpub, hslot⟩ :=
      last_of_isDone rfl rfl hs hd
    refine ⟨h.tracks.state_eq_of_isDone hd, before, time, after, he, hc, hstill,
      Array.isEmpty_iff.1 hp, ?_, ?_⟩
    · rw [hpub, hstate]
    · rw [hslot, hstate]
  · subst he
    obtain ⟨hbefore, hafter, -⟩ := List.pairwise_append.1 hs
    obtain ⟨hnone, -⟩ := List.pairwise_cons.1 hafter
    obtain ⟨_, _, hb⟩ := publishes_serveAll h₀ rfl hbefore
    have hstill : (c₀.serveAll before).isDone = false := by
      rw [← Bool.not_eq_true]
      intro hd
      have hclosed := (isClosed_serveAll c₀ before).1 (hb.of_isDone hd).1
      exact hclosed.elim (fun h => by cases h) hfirst
    have hc : c = (c₀.serveAll before).close.serveAll after := serveAll_append c₀ before _
    rw [hc]
    exact isDone_serveAll_iff (c := (c₀.serveAll before).close) hstill rfl
      fun s hmem => hnone s hmem rfl

/-- Two tasks were registered and are published at once; one of them starts, which is published
after the interval; nothing changes until the end, which is published all the same. -/
def exampleServices : List Service :=
  [.receive 0, .tick 0, .send ⟨⟨"a"⟩, .started (.ofMillis 20)⟩, .close, .receive 60, .tick 110,
    .receive 110]

/-- Three snapshots, of which the last two are the state after all events. -/
theorem refines_fold_example :
    let queue : List TaskEvent := [⟨⟨"a"⟩, .registered "a"⟩, ⟨⟨"b"⟩, .registered "b"⟩]
    let c := (queued queue 50 0 {}).serveAll exampleServices
    Orderly exampleServices ∧ c.published.map (·.time) = [110, 60, 0] ∧
      c.published.map (·.state.tasks.size) = [2, 2, 2] ∧
      c.state = SystemState.empty.fold (queue ++ sent exampleServices) := by
  have hs : Orderly exampleServices := by decide
  exact ⟨hs, by decide +kernel, by decide +kernel,
    ((refines_fold _ 50 0 {} hs).2.2.1 (by decide +kernel)).1⟩

end Coordinator

end Taskflow
