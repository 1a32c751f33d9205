import Taskflow.Proofs.State.Publishing
set_option autoImplicit false

/-!
# When a coordinator publishes

A coordinator is served on a clock on which work takes no time. Events arrive, the queue is closed
and the two sources are served in any order, all at one instant; the clock moves on only when
neither source has anything to offer, and then at most up to the next tick. On such a clock, and
with `gap` for the interval of the coordinator, two publications are a `gap` or more apart, what is
taken from the queue is published within a `gap`, nothing is published unless something was taken
from the queue since the publication before, and the last publication, which alone is exempt from
the first and the third of these, is made at the instant at which the queue is closed.

The two ways to publish share the time of the last publication and that of the next tick. While
nothing changes, the ticks go on and the two times drift apart; what ties them together is that the
next tick lies between now and now + `gap`, and a `gap` or more after every publication
(`Clocked.Punctual`).

## Main definitions

* `Coordinator.Clocked`, `Coordinator.Turn` — a coordinator with its clock, and what can happen.
* `Coordinator.Clocked.OnTime` — the clock waits for whatever can be served.
* `Coordinator.Clocked.applied`, `Coordinator.Clocked.Emits` — the events that are taken, and the
  turns at which something is published.
* `Coordinator.Clocked.Punctual` — how clock, ticker and publications hang together.

## Main results

* `Coordinator.Clocked.Punctual.take` — every turn keeps that.
* `Coordinator.Clocked.Punctual.take_effect` — all that a turn does to the publications.
* `Coordinator.Clocked.Punctual.published_of_takes` — what is taken is published within a `gap`.
* `Coordinator.Clocked.Punctual.after_of_close` — when the last publication is made.
* `Coordinator.Clocked.Punctual.exists_until` — the clock can always move on.
* `Coordinator.keeps_cadence` — when a coordinator publishes.
-/

namespace Taskflow

namespace Coordinator

/-- A coordinator and the clock it is served on. -/
structure Clocked where
  coordinator : Coordinator
  now : Nat
  deriving Repr, DecidableEq

/-- What can happen next to a coordinator or its clock. -/
inductive Turn where
  /-- an event arrives -/
  | send (e : TaskEvent)
  /-- the queue is closed -/
  | close
  /-- the queue is served -/
  | receive
  /-- the ticker is served -/
  | tick
  /-- the clock moves on -/
  | wait (time : Nat)
  deriving Repr, DecidableEq

namespace Turn

/-- The event that arrives. -/
def event? : Turn → Option TaskEvent
  | .send e => some e
  | .close | .receive | .tick | .wait _ => none

/-- Whether nobody outside is involved: a source is served, or the clock moves on. -/
def isInner : Turn → Bool
  | .receive | .tick | .wait _ => true
  | .send _ | .close => false

/-- The events that arrive, in their order. -/
def arrivals (turns : List Turn) : List TaskEvent := turns.filterMap event?

/-- Where something arrives, something was sent. -/
lemma exists_send_of_arrivals {turns : List Turn} (h : arrivals turns ≠ []) :
    ∃ e, .send e ∈ turns := by
  obtain ⟨e, he⟩ := List.exists_mem_of_ne_nil _ h
  obtain ⟨turn, hturn, hsends⟩ := List.mem_filterMap.1 he
  cases turn with
  | send e => exact ⟨e, hturn⟩
  | close => cases hsends
  | receive => cases hsends
  | tick => cases hsends
  | wait time => cases hsends

end Turn

namespace Clocked

/-- A coordinator on a clock that counts `unit` to a millisecond, to which shorter intervals are
raised. It was made at time `made`, and starts to serve its sources at time `begun`, when `queue` is
in its queue already. -/
def start (unit interval made begun : Nat) (queue : List TaskEvent) (slot : Slot) : Clocked :=
  ⟨{ queued queue (max interval unit) made slot with nextTick := begun }, begun⟩

/-- One thing happens. -/
def take (s : Clocked) : Turn → Clocked
  | .send e => { s with coordinator := s.coordinator.send e }
  | .close => { s with coordinator := s.coordinator.close }
  | .receive => { s with coordinator := s.coordinator.receive s.now }
  | .tick => { s with coordinator := s.coordinator.tick s.now }
  | .wait time => { s with now := time }

/-- One thing happens after the other. -/
def after (s : Clocked) (turns : List Turn) : Clocked := turns.foldl take s

/-- Nothing is sent to a closed queue. The clock only moves on when the queue has nothing to offer,
and it stops at the next tick. -/
def Admits (s : Clocked) : Turn → Prop
  | .send _ => s.coordinator.isClosed = false
  | .close | .receive | .tick => True
  | .wait time => s.now ≤ time ∧ s.coordinator.hasInput = false ∧
      (s.coordinator.isDone = true ∨ time ≤ s.coordinator.nextTick)

instance (s : Clocked) (turn : Turn) : Decidable (s.Admits turn) :=
  match turn with
  | .send _ => inferInstanceAs (Decidable (_ = _))
  | .close | .receive | .tick => inferInstanceAs (Decidable True)
  | .wait _ => inferInstanceAs (Decidable (_ ∧ _))

/-- The clock waits for whatever can be served. -/
def OnTime : Clocked → List Turn → Prop
  | _, [] => True
  | s, turn :: rest => s.Admits turn ∧ (s.take turn).OnTime rest

instance decidableOnTime : (s : Clocked) → (turns : List Turn) → Decidable (s.OnTime turns)
  | _, [] => inferInstanceAs (Decidable True)
  | s, turn :: rest =>
    haveI := decidableOnTime (s.take turn) rest
    inferInstanceAs (Decidable (_ ∧ _))

/-- The events that a turn takes from the queue. -/
def takes (s : Clocked) : Turn → List TaskEvent
  | .receive => if s.coordinator.isDone then [] else s.coordinator.pending.toList.take batchSize
  | .send _ | .close | .tick | .wait _ => []

/-- The events that are taken from the queue, one turn after the other. -/
def applied : Clocked → List Turn → List TaskEvent
  | _, [] => []
  | s, turn :: rest => s.takes turn ++ (s.take turn).applied rest

/-- With this turn `p` is published. -/
def Emits (s : Clocked) (turn : Turn) (p : Publication) : Prop :=
  (s.take turn).coordinator.published = p :: s.coordinator.published

variable {s : Clocked} {turn : Turn} {turns : List Turn} {gap : Nat} {p : Publication}

/-! ### Turn after turn -/

/-- Without turns nothing changes. -/
@[simp] lemma after_nil (s : Clocked) : s.after [] = s := rfl

/-- Turns are taken one after the other. -/
@[simp] lemma after_cons (s : Clocked) (turn : Turn) (rest : List Turn) :
    s.after (turn :: rest) = (s.take turn).after rest := rfl

/-- More turns are taken after the first ones. -/
@[simp] lemma after_append (s : Clocked) (turns more : List Turn) :
    s.after (turns ++ more) = (s.after turns).after more := List.foldl_append

/-- More turns are on time if they are so after the first ones. -/
lemma onTime_append (s : Clocked) (turns more : List Turn) :
    s.OnTime (turns ++ more) ↔ s.OnTime turns ∧ (s.after turns).OnTime more := by
  induction turns generalizing s with
  | nil => simp [OnTime]
  | cons turn rest ih =>
    rw [List.cons_append, OnTime, OnTime, ih, after_cons, and_assoc]

/-! ### What is taken from the queue -/

/-- Nothing is taken from a queue that has nothing to offer. -/
lemma takes_of_not_hasInput (h : s.coordinator.hasInput = false) (turn : Turn) :
    s.takes turn = [] := by
  cases turn with
  | send e => rfl
  | close => rfl
  | tick => rfl
  | wait time => rfl
  | receive =>
    rw [takes]
    split
    next => rfl
    next hopen =>
      have hpending : s.coordinator.pending.isEmpty = true := by
        by_contra hsome
        rw [hasInput_eq_true_iff.2 ⟨by simpa using hopen, .inl (by simpa using hsome)⟩] at h
        cases h
      rw [Array.isEmpty_iff.1 hpending]
      rfl

/-- A turn that serves the queue of a coordinator that is not done takes a batch. -/
lemma takes_receive (hopen : s.coordinator.isDone = false) :
    s.takes .receive = s.coordinator.pending.toList.take batchSize :=
  if_neg (by simp [hopen])

/-- Something is taken from a queue that is not empty. -/
lemma takes_ne_nil (hopen : s.coordinator.isDone = false)
    (hsome : s.coordinator.pending.isEmpty = false) : s.takes .receive ≠ [] := by
  rw [takes_receive hopen, Ne, List.take_eq_nil_iff, not_or]
  refine ⟨by decide, fun hnil => ?_⟩
  rw [Array.toList_eq_nil_iff.1 hnil] at hsome
  cases hsome

/-- The state changes by the events that are taken. -/
lemma state_take (s : Clocked) (turn : Turn) :
    (s.take turn).coordinator.state = s.coordinator.state.fold (s.takes turn) := by
  cases turn with
  | send e => rfl
  | close => rfl
  | wait time => rfl
  | tick => exact tick_state s.coordinator s.now
  | receive =>
    rcases receive_effect s.coordinator s.now with
      ⟨hidle, heq⟩ | ⟨hopen, hnone, -, heq⟩ | ⟨hopen, -, -, heq⟩ | ⟨hopen, -, -, heq⟩
    · rw [takes_of_not_hasInput hidle, take, heq]
      rfl
    · rw [takes_receive hopen, Array.isEmpty_iff.1 hnone, take, heq]
      rfl
    · rw [takes_receive hopen, take, heq]
      exact takeBatch_state s.coordinator
    · rw [takes_receive hopen, take, heq]
      exact takeBatch_state s.coordinator

/-- What arrives goes behind what is in the queue; what is taken was at its front. -/
lemma pending_take (s : Clocked) (turn : Turn) :
    s.takes turn ++ (s.take turn).coordinator.pending.toList =
      s.coordinator.pending.toList ++ turn.event?.toList := by
  cases turn with
  | send e => simp [take, takes, Coordinator.send, Turn.event?]
  | close => simp [take, takes, Coordinator.close, Turn.event?]
  | wait time => simp [take, takes, Turn.event?]
  | tick => simp [take, takes, Turn.event?]
  | receive =>
    rw [Turn.event?, Option.toList_none, List.append_nil]
    rcases receive_effect s.coordinator s.now with
      ⟨hidle, heq⟩ | ⟨hopen, hnone, -, heq⟩ | ⟨hopen, -, -, heq⟩ | ⟨hopen, -, -, heq⟩
    · rw [takes_of_not_hasInput hidle, take, heq]
      rfl
    · rw [takes_receive hopen, take, heq, Array.isEmpty_iff.1 hnone]
      simp [Coordinator.publish, Array.isEmpty_iff.1 hnone]
    · rw [takes_receive hopen, take, heq]
      simp only [Coordinator.publish]
      rw [toList_pending_takeBatch, List.take_append_drop]
    · rw [takes_receive hopen, take, heq]
      simp only
      rw [toList_pending_takeBatch, List.take_append_drop]

/-- A batch makes the queue shorter. -/
lemma size_pending_receive_lt (hopen : s.coordinator.isDone = false)
    (hsome : s.coordinator.pending.isEmpty = false) :
    (s.take .receive).coordinator.pending.size < s.coordinator.pending.size := by
  have hall := congrArg List.length (pending_take s .receive)
  have hpos := List.length_pos_iff.2 (takes_ne_nil hopen hsome)
  rw [Turn.event?, Option.toList_none, List.append_nil, List.length_append] at hall
  rw [← Array.length_toList, ← Array.length_toList]
  omega

/-- The state after any number of turns is that of the events taken. -/
lemma state_after (s : Clocked) (turns : List Turn) :
    (s.after turns).coordinator.state = s.coordinator.state.fold (s.applied turns) := by
  induction turns generalizing s with
  | nil => rfl
  | cons turn rest ih => rw [after_cons, ih, state_take, applied, SystemState.fold_append]

/-- Every event is taken once, in the order in which the events arrive. -/
lemma applied_append_pending (s : Clocked) (turns : List Turn) :
    s.applied turns ++ (s.after turns).coordinator.pending.toList =
      s.coordinator.pending.toList ++ Turn.arrivals turns := by
  induction turns generalizing s with
  | nil => simp [applied, Turn.arrivals]
  | cons turn rest ih =>
    have harrivals : Turn.arrivals (turn :: rest) = turn.event?.toList ++ Turn.arrivals rest := by
      cases h : turn.event? <;> simp [Turn.arrivals, h]
    rw [applied, after_cons, List.append_assoc, ih, ← List.append_assoc, pending_take,
      List.append_assoc, harrivals]

/-! ### Clock, ticker and publications -/

/-- A coordinator that is not done has its next tick between now and now + `gap`, and a `gap` or
more after everything it has published. All its publications lie a `gap` or more apart, and when it
is done, all but the last. -/
structure Punctual (gap : Nat) (s : Clocked) : Prop where
  interval_eq : s.coordinator.interval = gap
  now_le : s.coordinator.isDone = false → s.now ≤ s.coordinator.nextTick
  nextTick_le : s.coordinator.isDone = false → s.coordinator.nextTick ≤ s.now + gap
  time_add_le : s.coordinator.isDone = false →
    ∀ p ∈ s.coordinator.published, p.time + gap ≤ s.coordinator.nextTick
  time_le : s.coordinator.isDone = false →
    ∀ p ∈ s.coordinator.published, p.time ≤ s.coordinator.lastPublished
  spaced : (if s.coordinator.isDone then s.coordinator.published.tail
    else s.coordinator.published).Pairwise fun later earlier => earlier.time + gap ≤ later.time
  of_isDone : s.coordinator.isDone = true →
    s.coordinator.isClosed = true ∧ s.coordinator.pending.isEmpty = true

namespace Punctual

/-- A coordinator that starts is punctual. -/
protected lemma start {unit : Nat} (hunit : 0 < unit) (interval made begun : Nat)
    (queue : List TaskEvent) (slot : Slot) :
    Punctual (max interval unit) (start unit interval made begun queue slot) where
  interval_eq := by
    change max (max interval unit) 1 = max interval unit
    omega
  now_le := fun _ => Nat.le_refl _
  nextTick_le := fun _ => Nat.le_add_right _ _
  time_add_le := fun _ p hp => absurd hp List.not_mem_nil
  time_le := fun _ p hp => absurd hp List.not_mem_nil
  spaced := List.Pairwise.nil
  of_isDone := fun hd => by cases hd

/-- Nothing changes that has to do with time, nor that the coordinator is not done. -/
lemma of_same (h : s.Punctual gap) {c : Coordinator}
    (hinterval : c.interval = s.coordinator.interval)
    (hnext : c.nextTick = s.coordinator.nextTick)
    (hlast : c.lastPublished = s.coordinator.lastPublished)
    (hpublished : c.published = s.coordinator.published)
    (hdone : c.isDone = s.coordinator.isDone)
    (hend : c.isDone = true → c.isClosed = true ∧ c.pending.isEmpty = true) :
    Punctual gap ⟨c, s.now⟩ := by
  obtain ⟨h₁, h₂, h₃, h₄, h₅, h₆, -⟩ := h
  rw [← hinterval] at h₁
  rw [← hdone, ← hnext] at h₂ h₃
  rw [← hdone, ← hnext, ← hpublished] at h₄
  rw [← hdone, ← hlast, ← hpublished] at h₅
  rw [← hdone, ← hpublished] at h₆
  exact ⟨h₁, h₂, h₃, h₄, h₅, h₆, hend⟩

/-- A publication a `gap` or more after the others moves the next tick to a `gap` from now. -/
lemma of_publish (h : s.Punctual gap)
    (hold : ∀ p ∈ s.coordinator.published, p.time + gap ≤ s.now) {c : Coordinator}
    (hopen : s.coordinator.isDone = false) (hinterval : c.interval = s.coordinator.interval)
    (hnext : c.nextTick = s.now + gap) (hlast : c.lastPublished = s.now)
    (hpublished : c.published = ⟨s.now, c.state⟩ :: s.coordinator.published)
    (hdone : c.isDone = false) : Punctual gap ⟨c, s.now⟩ where
  interval_eq := hinterval.trans h.interval_eq
  now_le := fun _ => hnext ▸ Nat.le_add_right _ _
  nextTick_le := fun _ => Nat.le_of_eq hnext
  time_add_le := fun _ p hp => by
    simp only [hpublished, List.mem_cons] at hp
    rw [hnext]
    rcases hp with rfl | hp
    · exact Nat.le_refl _
    · exact Nat.le_trans (hold p hp) (Nat.le_add_right _ _)
  time_le := fun _ p hp => by
    simp only [hpublished, List.mem_cons] at hp
    rw [hlast]
    rcases hp with rfl | hp
    · exact Nat.le_refl _
    · exact Nat.le_trans (Nat.le_add_right _ _) (hold p hp)
  spaced := by
    have hspaced := h.spaced
    rw [if_neg (by simp [hopen])] at hspaced
    rw [if_neg (by simp [hdone]), hpublished]
    exact List.pairwise_cons.2 ⟨hold, hspaced⟩
  of_isDone := fun hd => by
    rw [hdone] at hd
    cases hd

/-- The last publication may come at any time. -/
lemma of_finish (h : s.Punctual gap) (hopen : s.coordinator.isDone = false)
    (hclosed : s.coordinator.isClosed = true) (hpending : s.coordinator.pending.isEmpty = true) :
    Punctual gap ⟨{ s.coordinator.publish s.now with isDone := true }, s.now⟩ where
  interval_eq := h.interval_eq
  now_le := fun hd => by cases hd
  nextTick_le := fun hd => by cases hd
  time_add_le := fun hd => by cases hd
  time_le := fun hd => by cases hd
  spaced := by
    have hspaced := h.spaced
    rwa [if_neg (by simp [hopen])] at hspaced
  of_isDone := fun _ => ⟨hclosed, hpending⟩

/-- **Every turn keeps clock, ticker and publications together.** -/
lemma take (h : s.Punctual gap) (hturn : s.Admits turn) : (s.take turn).Punctual gap := by
  cases turn with
  | send e =>
    have hopen : s.coordinator.isClosed = false := hturn
    refine h.of_same rfl rfl rfl rfl rfl fun hd => ?_
    rw [(h.of_isDone hd).1] at hopen
    cases hopen
  | close => exact h.of_same rfl rfl rfl rfl rfl fun hd => ⟨rfl, (h.of_isDone hd).2⟩
  | wait time =>
    obtain ⟨hle, -, hnext⟩ := hturn
    exact
      { h with
        now_le := fun hopen => hnext.resolve_left (Bool.eq_false_iff.1 hopen)
        nextTick_le := fun hopen =>
          Nat.le_trans (h.nextTick_le hopen) (Nat.add_le_add_right hle gap) }
  | tick =>
    rcases tick_effect s.now h.now_le with ⟨heq, -⟩ | ⟨hopen, hdue, heq⟩
    · rw [Clocked.take, heq]
      exact h
    · have hold := h.time_add_le hopen
      rw [hdue] at hold
      rw [Clocked.take, heq]
      cases hdirty : s.coordinator.dirty with
      | true => exact h.of_publish hold hopen rfl (by rw [h.interval_eq]; rfl) rfl rfl hopen
      | false =>
        have hnext : s.now + s.coordinator.interval = s.now + gap := by rw [h.interval_eq]
        exact
          { h with
            now_le := fun _ => Nat.le_add_right _ _
            nextTick_le := fun _ => Nat.le_of_eq hnext
            time_add_le := fun _ p hp =>
              Nat.le_trans (hold p hp) (Nat.le_add_right _ _) }
  | receive =>
    rcases receive_effect s.coordinator s.now with
      ⟨-, heq⟩ | ⟨hopen, hnone, hclosed, heq⟩ | ⟨hopen, -, hlate, heq⟩ | ⟨hopen, -, -, heq⟩
    · rw [Clocked.take, heq]
      exact h
    · rw [Clocked.take, heq]
      exact h.of_finish hopen hclosed hnone
    · have hold : ∀ p ∈ s.coordinator.published, p.time + gap ≤ s.now := fun p hp => by
        have hlast := h.time_le hopen p hp
        have hgap := h.interval_eq
        omega
      have hinterval := takeBatch_interval s.coordinator
      have hpublished := takeBatch_published s.coordinator
      have hdone := takeBatch_isDone s.coordinator
      rw [Clocked.take, heq]
      generalize s.coordinator.takeBatch = b at hinterval hpublished hdone ⊢
      exact h.of_publish hold hopen hinterval (by rw [h.interval_eq]) rfl
        (by rw [← hpublished]; rfl) (hdone.trans hopen)
    · rw [Clocked.take, heq]
      refine h.of_same (takeBatch_interval _) (takeBatch_nextTick _) (takeBatch_lastPublished _)
        (takeBatch_published _) (takeBatch_isDone _) fun hd => ?_
      rw [takeBatch_isDone, hopen] at hd
      cases hd

/-- What is on time stays so. -/
lemma after (h : s.Punctual gap) (hturns : s.OnTime turns) : (s.after turns).Punctual gap := by
  induction turns generalizing s with
  | nil => exact h
  | cons turn rest ih => exact ih (h.take hturns.1) hturns.2

end Punctual

/-! ### What is published -/

/-- **What a turn does to the publications.** Either nothing is published; then something has
changed if it had before or if events were taken, and what had changed before is still due with the
same tick. Or the state that the turn leaves is published; then something had changed, events were
taken, or it is the end. -/
lemma Punctual.take_effect (h : s.Punctual gap) (turn : Turn) :
    let c := s.coordinator
    let c' := (s.take turn).coordinator
    (c'.published = c.published ∧ c'.isDone = c.isDone ∧
      (c'.dirty = true ↔ c.dirty = true ∨ s.takes turn ≠ []) ∧
      (c.dirty = true → c'.nextTick = c.nextTick)) ∨
    (c'.published = ⟨s.now, c'.state⟩ :: c.published ∧ c'.dirty = false ∧ c.isDone = false ∧
      (c'.isDone = true ∨ c.dirty = true ∨ s.takes turn ≠ [])) := by
  intro c c'
  have hquiet (hpublished : c'.published = c.published) (hdone : c'.isDone = c.isDone)
      (hdirty : c'.dirty = c.dirty) (hnext : c.dirty = true → c'.nextTick = c.nextTick)
      (hnone : s.takes turn = []) :
      c'.published = c.published ∧ c'.isDone = c.isDone ∧
        (c'.dirty = true ↔ c.dirty = true ∨ s.takes turn ≠ []) ∧
        (c.dirty = true → c'.nextTick = c.nextTick) :=
    ⟨hpublished, hdone, by simp [hdirty, hnone], hnext⟩
  have hidle (hc' : c' = c) (hnone : s.takes turn = []) := hquiet
    (congrArg Coordinator.published hc') (congrArg Coordinator.isDone hc')
    (congrArg Coordinator.dirty hc') (fun _ => congrArg Coordinator.nextTick hc') hnone
  cases turn with
  | send e => exact .inl (hquiet rfl rfl rfl (fun _ => rfl) rfl)
  | close => exact .inl (hquiet rfl rfl rfl (fun _ => rfl) rfl)
  | wait time => exact .inl (hidle rfl rfl)
  | tick =>
    rcases tick_effect s.now h.now_le with ⟨heq, -⟩ | ⟨hopen, -, heq⟩
    · exact .inl (hidle heq rfl)
    · cases hdirty : c.dirty with
      | true =>
        have hc' : c' = _ := heq.trans (if_pos hdirty)
        rw [hc']
        exact .inr ⟨rfl, rfl, hopen, .inr (.inl rfl)⟩
      | false =>
        have hc' : c' = _ := heq.trans (if_neg (by simp [c, hdirty]))
        rw [← hdirty]
        refine .inl (hquiet ?_ ?_ ?_ (fun hd => ?_) rfl)
        · rw [hc']
        · rw [hc']
        · rw [hc']
        · rw [hdirty] at hd
          cases hd
  | receive =>
    have hpublished := takeBatch_published c
    have hdone := takeBatch_isDone c
    have hdirty := takeBatch_dirty c
    have hnext := takeBatch_nextTick c
    rcases receive_effect c s.now with
      ⟨hnone, heq⟩ | ⟨hopen, -, -, heq⟩ | ⟨hopen, hsome, -, heq⟩ | ⟨hopen, hsome, -, heq⟩
    · exact .inl (hidle heq (takes_of_not_hasInput hnone _))
    · have hc' : c' = _ := heq
      rw [hc']
      exact .inr ⟨rfl, rfl, hopen, .inl rfl⟩
    · have hc' : c' = _ := heq
      rw [hc']
      generalize c.takeBatch = b at hpublished ⊢
      exact .inr ⟨by rw [← hpublished]; rfl, rfl, hopen, .inr (.inr (takes_ne_nil hopen hsome))⟩
    · have hc' : c' = _ := heq
      rw [hc']
      exact .inl ⟨hpublished, hdone, iff_of_true hdirty (.inr (takes_ne_nil hopen hsome)),
        fun _ => hnext⟩

/-- When something was published, nothing has changed since. -/
lemma Emits.dirty_eq (hp : s.Emits turn p) (h : s.Punctual gap) :
    (s.take turn).coordinator.dirty = false := by
  rcases h.take_effect turn with ⟨hsame, -⟩ | ⟨-, hclean, -⟩
  · exact absurd (hp.symm.trans hsame) (List.cons_ne_self _ _)
  · exact hclean

/-- A coordinator that is done stays so; nothing more is taken or published. -/
lemma Punctual.after_of_isDone (h : s.Punctual gap) (hd : s.coordinator.isDone = true)
    (hturns : s.OnTime turns) : (s.after turns).coordinator.isDone = true ∧
      (s.after turns).coordinator.published = s.coordinator.published ∧
      (s.after turns).coordinator.state = s.coordinator.state := by
  induction turns generalizing s with
  | nil => exact ⟨hd, rfl, rfl⟩
  | cons turn rest ih =>
    rcases h.take_effect turn with ⟨hsame, hdone, -⟩ | ⟨-, -, hopen, -⟩
    · obtain ⟨hd', hsame', hstate⟩ := ih (h.take hturns.1) (hdone.trans hd) hturns.2
      rw [state_take, takes_of_not_hasInput (hasInput_of_isDone hd)] at hstate
      exact ⟨hd', hsame'.trans hsame, hstate⟩
    · rw [hd] at hopen
      cases hopen

/-- What was published stays so. -/
lemma Punctual.published_suffix (h : s.Punctual gap) (hturns : s.OnTime turns) :
    s.coordinator.published <:+ (s.after turns).coordinator.published := by
  induction turns generalizing s with
  | nil => exact List.suffix_rfl
  | cons turn rest ih =>
    refine List.IsSuffix.trans ?_ (ih (h.take hturns.1) hturns.2)
    rcases h.take_effect turn with ⟨hsame, -⟩ | ⟨hemits, -⟩
    · exact hsame ▸ List.suffix_rfl
    · exact hemits ▸ List.suffix_cons _ _

/-- **What has changed is published by the next tick**, unless the clock has not come so far. -/
theorem Punctual.published_of_dirty {deadline : Nat} (h : s.Punctual gap)
    (hdirty : s.coordinator.dirty = true) (hopen : s.coordinator.isDone = false)
    (hdue : s.coordinator.nextTick ≤ deadline) (hturns : s.OnTime turns) :
    (∃ p ∈ (s.after turns).coordinator.published, p.time ≤ deadline ∧
      ∃ since, p.state = s.coordinator.state.fold since) ∨
    ((s.after turns).coordinator.isDone = false ∧ (s.after turns).now ≤ deadline) := by
  induction turns generalizing s with
  | nil => exact .inr ⟨hopen, Nat.le_trans (h.now_le hopen) hdue⟩
  | cons turn rest ih =>
    have h' := h.take hturns.1
    rcases h.take_effect turn with ⟨-, hdone, hdirty', hnext⟩ | ⟨hemits, -⟩
    · rcases ih h' (hdirty'.2 (.inl hdirty)) (hdone.trans hopen)
        (Nat.le_trans (Nat.le_of_eq (hnext hdirty)) hdue) hturns.2 with
        ⟨p, hp, htime, since, hstate⟩ | hstill
      · refine .inl ⟨p, hp, htime, s.takes turn ++ since, ?_⟩
        rw [hstate, state_take, SystemState.fold_append]
      · exact .inr hstill
    · exact .inl ⟨_, (h'.published_suffix hturns.2).mem (hemits ▸ List.mem_cons_self),
        Nat.le_trans (h.now_le hopen) hdue, _, state_take s turn⟩

/-- The clock does not move on while something is taken. -/
lemma now_take_of_takes (hsome : s.takes turn ≠ []) : (s.take turn).now = s.now := by
  cases turn with
  | send e => rfl
  | close => rfl
  | receive => rfl
  | tick => rfl
  | wait time => exact absurd rfl hsome

/-- **What is taken is published within a `gap`**, unless the clock has not come so far. -/
theorem Punctual.published_of_takes {rest : List Turn} (h : s.Punctual gap)
    (hsome : s.takes turn ≠ []) (hturns : s.OnTime (turn :: rest)) :
    (∃ p ∈ (s.after (turn :: rest)).coordinator.published, p.time ≤ s.now + gap ∧
      ∃ since, p.state = (s.take turn).coordinator.state.fold since) ∨
    ((s.after (turn :: rest)).coordinator.isDone = false ∧
      (s.after (turn :: rest)).now ≤ s.now + gap) := by
  have h' := h.take hturns.1
  rw [after_cons]
  rcases h.take_effect turn with ⟨-, hdone, hdirty, -⟩ | ⟨hemits, -⟩
  · have hopen : (s.take turn).coordinator.isDone = false := by
      rw [hdone, ← Bool.not_eq_true]
      exact fun hd => hsome (takes_of_not_hasInput (hasInput_of_isDone hd) turn)
    have hdue := h'.nextTick_le hopen
    rw [now_take_of_takes hsome] at hdue
    exact h'.published_of_dirty (hdirty.2 (.inr hsome)) hopen hdue hturns.2
  · exact .inl ⟨_, (h'.published_suffix hturns.2).mem (hemits ▸ List.mem_cons_self),
      Nat.le_add_right _ _, [], rfl⟩

/-- As long as no events are taken, nothing changes and nothing is published, but for the end. -/
lemma Punctual.after_of_clean (h : s.Punctual gap) (hclean : s.coordinator.dirty = false)
    (hturns : s.OnTime turns) (hnone : s.applied turns = [])
    (hopen : (s.after turns).coordinator.isDone = false) :
    (s.after turns).coordinator.published = s.coordinator.published := by
  induction turns generalizing s with
  | nil => rfl
  | cons turn rest ih =>
    obtain ⟨htakes, hrest⟩ := List.append_eq_nil_iff.1 hnone
    rcases h.take_effect turn with ⟨hsame, -, hdirty, -⟩ | ⟨-, -, -, hwhy⟩
    · have hclean' : (s.take turn).coordinator.dirty = false := by
        rw [← Bool.not_eq_true, hdirty]
        simp [hclean, htakes]
      exact (ih (h.take hturns.1) hclean' hturns.2 hrest hopen).trans hsame
    · rcases hwhy with hdone | hdirty | hsome
      · rw [after_cons, ((h.take hturns.1).after_of_isDone hdone hturns.2).1] at hopen
        cases hopen
      · rw [hclean] at hdirty
        cases hdirty
      · exact absurd htakes hsome

/-- Apart from the end, nothing is published unless events were taken since the state was last
published. -/
lemma Punctual.applied_of_emits (h : s.Punctual gap) (hclean : s.coordinator.dirty = false)
    (hturns : s.OnTime (turns ++ [turn])) (hp : (s.after turns).Emits turn p)
    (hopen : (s.after (turns ++ [turn])).coordinator.isDone = false) :
    s.applied (turns ++ [turn]) ≠ [] := by
  intro hnone
  have hsame := h.after_of_clean hclean hturns hnone hopen
  have hlonger := congrArg List.length hp
  have hgrown := (h.published_suffix ((onTime_append s turns _).1 hturns).1).length_le
  rw [after_append, after_cons, after_nil] at hsame
  rw [hsame, List.length_cons] at hlonger
  omega

/-! ### The end of the queue -/

/-- A queue is closed by closing it. -/
lemma isClosed_take_iff (s : Clocked) (turn : Turn) :
    (s.take turn).coordinator.isClosed = true ↔
      s.coordinator.isClosed = true ∨ turn = .close := by
  cases turn with
  | send e => simp [take, Coordinator.send]
  | close => simp [take, Coordinator.close]
  | receive => simp [take]
  | tick => simp [take]
  | wait time => simp [take]

/-- The queue is closed if it was, or if a turn closes it. -/
lemma isClosed_after_iff (s : Clocked) (turns : List Turn) :
    (s.after turns).coordinator.isClosed = true ↔
      s.coordinator.isClosed = true ∨ .close ∈ turns := by
  induction turns generalizing s with
  | nil => simp
  | cons turn rest ih =>
    rw [after_cons, ih, isClosed_take_iff, or_assoc, List.mem_cons, @eq_comm _ turn]

/-- The end of the queue has something to offer, so the clock stands still. -/
lemma now_take_of_isClosed (hclosed : s.coordinator.isClosed = true)
    (hopen : s.coordinator.isDone = false) (hturn : s.Admits turn) : (s.take turn).now = s.now := by
  cases turn with
  | send e => rfl
  | close => rfl
  | receive => rfl
  | tick => rfl
  | wait time =>
    have hidle := hturn.2.1
    rw [hasInput_eq_true_iff.2 ⟨hopen, .inr hclosed⟩] at hidle
    cases hidle

/-- **The last publication is made at the instant at which the queue is closed**, and till then the
clock stands still. -/
theorem Punctual.after_of_isClosed (h : s.Punctual gap) (hclosed : s.coordinator.isClosed = true)
    (hopen : s.coordinator.isDone = false) (hturns : s.OnTime turns) :
    ((s.after turns).coordinator.isDone = false ∧ (s.after turns).now = s.now) ∨
    ((s.after turns).coordinator.isDone = true ∧ ∃ earlier,
      (s.after turns).coordinator.published =
        ⟨s.now, (s.after turns).coordinator.state⟩ :: earlier) := by
  induction turns generalizing s with
  | nil => exact .inl ⟨hopen, rfl⟩
  | cons turn rest ih =>
    have h' := h.take hturns.1
    rw [after_cons]
    cases hd : (s.take turn).coordinator.isDone with
    | false =>
      rw [← now_take_of_isClosed hclosed hopen hturns.1]
      exact ih h' ((isClosed_take_iff s turn).2 (.inl hclosed)) hd hturns.2
    | true =>
      obtain ⟨hdone, hsame, hstate⟩ := h'.after_of_isDone hd hturns.2
      rcases h.take_effect turn with ⟨-, hstill, -⟩ | ⟨hemits, -⟩
      · rw [hd, hopen] at hstill
        cases hstill
      · exact .inr ⟨hdone, _, by rw [hsame, hemits, hstate]⟩

/-- What a coordinator publishes last, once its queue is closed for the first time. -/
lemma Punctual.after_of_close (h : s.Punctual gap) (before rest : List Turn)
    (hopen : s.coordinator.isClosed = false) (hturns : s.OnTime (before ++ .close :: rest))
    (hfirst : .close ∉ before) :
    let e := s.after (before ++ .close :: rest)
    (e.coordinator.isDone = false ∧ e.now = (s.after before).now) ∨
    (e.coordinator.isDone = true ∧ ∃ earlier, e.coordinator.published =
      ⟨(s.after before).now, s.coordinator.state.fold (s.coordinator.pending.toList ++
        Turn.arrivals (before ++ .close :: rest))⟩ :: earlier) := by
  intro e
  obtain ⟨hbefore, hclose, hrest⟩ := (onTime_append s before _).1 hturns
  have hstill : (s.after before).coordinator.isDone = false := by
    rw [← Bool.not_eq_true]
    intro hd
    have hclosed := (isClosed_after_iff s before).1 ((h.after hbefore).of_isDone hd).1
    exact hfirst (hclosed.resolve_left (by simp [hopen]))
  have he : e = ((s.after before).take .close).after rest := after_append s before _
  rcases ((h.after hbefore).take hclose).after_of_isClosed rfl hstill hrest with
    ⟨hd, hnow⟩ | ⟨hd, earlier, hlast⟩
  · rw [← he] at hd hnow
    exact .inl ⟨hd, hnow⟩
  · rw [← he] at hd hlast
    have hall : s.applied (before ++ .close :: rest) ++ e.coordinator.pending.toList = _ :=
      applied_append_pending s _
    rw [Array.isEmpty_iff.1 ((h.after hturns).of_isDone hd).2, List.append_nil] at hall
    refine .inr ⟨hd, earlier, ?_⟩
    rw [hlast, ← hall, ← state_after]
    rfl

/-! ### Arrivals -/

/-- The clock does not go back. -/
lemma now_le_after (hturns : s.OnTime turns) : s.now ≤ (s.after turns).now := by
  induction turns generalizing s with
  | nil => exact Nat.le_refl _
  | cons turn rest ih =>
    refine Nat.le_trans ?_ (ih hturns.2)
    cases turn with
    | send e => exact Nat.le_refl _
    | close => exact Nat.le_refl _
    | receive => exact Nat.le_refl _
    | tick => exact Nat.le_refl _
    | wait time => exact hturns.1.1

/-- What is in the queue arrived at this instant, since the clock waits for it to be served. -/
lemma Punctual.arrived (h : s.Punctual gap) (hturns : s.OnTime turns)
    (hsome : (s.after turns).coordinator.pending ≠ #[]) :
    (∃ earlier e later, turns = earlier ++ .send e :: later ∧
      (s.after earlier).now = (s.after turns).now) ∨
    (s.coordinator.pending ≠ #[] ∧ s.now = (s.after turns).now) := by
  induction turns using List.reverseRecOn with
  | nil => exact .inr ⟨hsome, rfl⟩
  | append_singleton before turn ih =>
    obtain ⟨hbefore, hturn, -⟩ := (onTime_append s before [turn]).1 hturns
    rw [after_append, after_cons, after_nil] at hsome ⊢
    generalize hb : s.after before = b at *
    -- a turn at which nothing arrives and the clock does not move on
    have hstays (hnone : turn.event? = none) (hnow : (b.take turn).now = b.now) :
        (∃ earlier e later, before ++ [turn] = earlier ++ .send e :: later ∧
          (s.after earlier).now = (b.take turn).now) ∨
        (s.coordinator.pending ≠ #[] ∧ s.now = (b.take turn).now) := by
      have hpending : b.coordinator.pending ≠ #[] := fun hempty => by
        have hall := pending_take b turn
        rw [hempty, hnone] at hall
        exact hsome (Array.toList_eq_nil_iff.1 (List.append_eq_nil_iff.1 hall).2)
      rw [hnow]
      rcases ih hbefore hpending with ⟨earlier, e, later, rfl, htime⟩ | hstart
      · exact .inl ⟨earlier, e, later ++ [turn], by simp, htime⟩
      · exact .inr hstart
    cases turn with
    | send e => exact .inl ⟨before, e, [], rfl, by rw [hb]; rfl⟩
    | close => exact hstays rfl rfl
    | receive => exact hstays rfl rfl
    | tick => exact hstays rfl rfl
    | wait time =>
      -- the clock would not have moved on
      have hidle := hturn.2.1
      have hb' : b.Punctual gap := hb ▸ h.after hbefore
      have hpending : b.coordinator.pending.isEmpty = false := by
        simpa using show b.coordinator.pending ≠ #[] from hsome
      cases hd : b.coordinator.isDone with
      | true =>
        rw [(hb'.of_isDone hd).2] at hpending
        cases hpending
      | false =>
        rw [hasInput_eq_true_iff.2 ⟨hd, .inl hpending⟩] at hidle
        cases hidle

/-- What is taken after some turns was not in the queue before the instant to which they led. -/
lemma Punctual.arrived_of_applied {more : List Turn} (h : s.Punctual gap)
    (hturns : s.OnTime (turns ++ more)) (hsome : (s.after turns).applied more ≠ []) :
    (∃ start e rest, turns ++ more = start ++ .send e :: rest ∧
      (s.after turns).now ≤ (s.after start).now) ∨
    (s.coordinator.pending ≠ #[] ∧ (s.after turns).now = s.now) := by
  obtain ⟨hturns, hmore⟩ := (onTime_append s turns more).1 hturns
  by_cases hpending : (s.after turns).coordinator.pending = #[]
  · have harrivals : Turn.arrivals more ≠ [] := fun hnone => by
      have hall := applied_append_pending (s.after turns) more
      rw [hpending, hnone] at hall
      exact hsome (List.append_eq_nil_iff.1 hall).1
    obtain ⟨e, he⟩ := Turn.exists_send_of_arrivals harrivals
    obtain ⟨start, rest, rfl⟩ := List.append_of_mem he
    refine .inl ⟨turns ++ start, e, rest, by simp, ?_⟩
    rw [after_append]
    exact now_le_after ((onTime_append _ start _).1 hmore).1
  · rcases h.arrived hturns hpending with ⟨start, e, rest, rfl, htime⟩ | ⟨hstart, htime⟩
    · exact .inl ⟨start, e, rest ++ more, by simp, Nat.le_of_eq htime.symm⟩
    · exact .inr ⟨hstart, htime.symm⟩

/-! ### The clock moves on -/

/-- The queue can be served until it has nothing to offer. -/
lemma exists_idle (s : Clocked) : ∃ more, (∀ turn ∈ more, turn = .receive) ∧ s.OnTime more ∧
    (s.after more).coordinator.hasInput = false ∧ (s.after more).now = s.now := by
  induction hn : s.coordinator.pending.size using Nat.strongRecOn generalizing s with
  | ind n ih =>
    subst hn
    rcases receive_effect s.coordinator s.now with
      ⟨hidle, -⟩ | ⟨-, -, -, heq⟩ | ⟨hopen, hsome, -⟩ | ⟨hopen, hsome, -⟩
    · exact ⟨[], by simp, trivial, hidle, rfl⟩
    · refine ⟨[.receive], by simp, ⟨trivial, trivial⟩, ?_, rfl⟩
      rw [after_cons, after_nil, take, heq]
      simp [hasInput]
    all_goals
      obtain ⟨more, hreceive, hmore, hidle, hnow⟩ :=
        ih _ (size_pending_receive_lt hopen hsome) (s.take .receive) rfl
      exact ⟨.receive :: more, by simpa using hreceive, ⟨trivial, hmore⟩, hidle, hnow⟩

/-- A due tick moves the next one on. -/
lemma Punctual.nextTick_tick (h : s.Punctual gap) (hopen : s.coordinator.isDone = false)
    (hdue : s.coordinator.nextTick ≤ s.now) :
    (s.take .tick).coordinator.nextTick = s.now + gap := by
  rcases tick_effect s.now h.now_le with ⟨-, hdone | hearly⟩ | ⟨-, -, heq⟩
  · rw [hopen] at hdone
    cases hdone
  · omega
  · rw [Clocked.take, heq, ← h.interval_eq]
    split <;> rfl

/-- With nothing to offer from the queue, the ticks that are due are served and the clock comes to
any `time`. -/
lemma Punctual.exists_until_of_idle {time : Nat} (h : s.Punctual gap) (hgap : 0 < gap)
    (hidle : s.coordinator.hasInput = false) (htime : s.now ≤ time) :
    ∃ more, (∀ turn ∈ more, turn.isInner = true) ∧ s.OnTime more ∧ (s.after more).now = time := by
  -- every tick that is not due too late brings the next one closer to `time`
  induction hn : time - s.coordinator.nextTick using Nat.strongRecOn generalizing s with
  | ind n ih =>
    subst hn
    by_cases hlast : s.coordinator.isDone = true ∨ time ≤ s.coordinator.nextTick
    · exact ⟨[.wait time], by simp [Turn.isInner], ⟨⟨htime, hidle, hlast⟩, trivial⟩, rfl⟩
    · rw [not_or, Bool.not_eq_true, Nat.not_le] at hlast
      obtain ⟨hopen, hlate⟩ := hlast
      have hturn : s.Admits (.wait s.coordinator.nextTick) :=
        ⟨h.now_le hopen, hidle, .inr (Nat.le_refl _)⟩
      let s' := (s.take (.wait s.coordinator.nextTick)).take .tick
      have hnext : s'.coordinator.nextTick = s.coordinator.nextTick + gap :=
        (h.take hturn).nextTick_tick hopen (Nat.le_refl _)
      have hidle' : s'.coordinator.hasInput = false := (hasInput_tick _ _).trans hidle
      obtain ⟨more, hinner, hmore, hnow⟩ := ih _ (by omega)
        (s := s') ((h.take hturn).take trivial) hidle' (Nat.le_of_lt hlate) rfl
      exact ⟨.wait s.coordinator.nextTick :: .tick :: more, by simpa [Turn.isInner] using hinner,
        ⟨hturn, trivial, hmore⟩, hnow⟩

/-- **The clock can always move on**: there is a way to serve the sources so that it comes to any
`time`. -/
theorem Punctual.exists_until {time : Nat} (h : s.Punctual gap) (hgap : 0 < gap)
    (htime : s.now ≤ time) :
    ∃ more, (∀ turn ∈ more, turn.isInner = true) ∧ s.OnTime more ∧ (s.after more).now = time := by
  obtain ⟨drain, hreceive, hdrain, hidle, hnow⟩ := exists_idle s
  obtain ⟨more, hinner, hmore, hreached⟩ :=
    (h.after hdrain).exists_until_of_idle hgap hidle (hnow ▸ htime)
  refine ⟨drain ++ more, fun turn hmem => ?_, (onTime_append _ _ _).2 ⟨hdrain, hmore⟩, ?_⟩
  · rcases List.mem_append.1 hmem with hmem | hmem
    · rw [hreceive turn hmem]
      rfl
    · exact hinner turn hmem
  · rw [after_append, hreached]

/-! ### Among other turns -/

/-- A turn among others publishes nothing, or the state after all that was taken so far. -/
lemma Punctual.publishes {before after : List Turn} (h : s.Punctual gap)
    (hturns : s.OnTime (before ++ turn :: after)) :
    let b := s.after before
    (b.take turn).coordinator.published = b.coordinator.published ∨
    b.Emits turn ⟨b.now, s.coordinator.state.fold (s.applied (before ++ [turn]))⟩ := by
  intro b
  have hbefore : s.OnTime before := ((onTime_append s before _).1 hturns).1
  rcases (h.after hbefore).take_effect turn with ⟨hsame, -⟩ | ⟨hemits, -⟩
  · exact .inl hsame
  · rw [← state_after, after_append]
    exact .inr hemits

/-- What a turn among others takes is published within a `gap`, unless the clock has not come so
far. -/
lemma Punctual.published_among {before after : List Turn} (h : s.Punctual gap)
    (hturns : s.OnTime (before ++ turn :: after)) (hsome : (s.after before).takes turn ≠ []) :
    let e := s.after (before ++ turn :: after)
    let deadline := (s.after before).now + gap
    (∃ p ∈ e.coordinator.published, p.time ≤ deadline ∧
      ∃ since, p.state = s.coordinator.state.fold (s.applied (before ++ [turn]) ++ since)) ∨
    (e.coordinator.isDone = false ∧ e.now ≤ deadline) := by
  intro e deadline
  obtain ⟨hbefore, hrest⟩ := (onTime_append s before _).1 hturns
  have he : e = (s.after before).after (turn :: after) := after_append s before _
  rw [he]
  rcases (h.after hbefore).published_of_takes hsome hrest with ⟨p, hp, htime, since, hp'⟩ | hstill
  · refine .inl ⟨p, hp, htime, since, ?_⟩
    rw [hp', SystemState.fold_append, ← state_after, after_append]
    rfl
  · exact .inr hstill

/-- A publication follows only if something was taken since the one before it, and this had arrived
no earlier than that one, or lay in the queue from the beginning, when it is still the time of the
beginning. The same holds from the beginning to the first publication, if nothing had changed at the
beginning. -/
lemma Punctual.applied_between {before between : List Turn} (h : s.Punctual gap)
    (hclean : s.coordinator.dirty = false) (hturns : s.OnTime (before ++ (between ++ [turn])))
    (hstart : before = [] ∨ ∃ start last q, before = start ++ [last] ∧ (s.after start).Emits last q)
    (hp : (s.after (before ++ between)).Emits turn p)
    (hopen : (s.after (before ++ (between ++ [turn]))).coordinator.isDone = false) :
    (s.after before).applied (between ++ [turn]) ≠ [] ∧
    ((∃ start e rest, before ++ (between ++ [turn]) = start ++ .send e :: rest ∧
        (s.after before).now ≤ (s.after start).now) ∨
      (s.coordinator.pending ≠ #[] ∧ (s.after before).now = s.now)) := by
  rw [after_append] at hp hopen
  obtain ⟨hbefore, hbetween⟩ := (onTime_append s before _).1 hturns
  have hclean' : (s.after before).coordinator.dirty = false := by
    rcases hstart with rfl | ⟨start, last, q, rfl, hq⟩
    · exact hclean
    · rw [after_append]
      exact hq.dirty_eq (h.after ((onTime_append s start _).1 hbefore).1)
  have hsome := (h.after hbefore).applied_of_emits hclean' hbetween hp hopen
  exact ⟨hsome, h.arrived_of_applied hturns hsome⟩

end Clocked

/-- **When a coordinator publishes.** On a clock that waits for whatever can be served, whatever
arrives at whatever time, however often and in whatever order the two sources are served, and with
`gap` for the interval, raised to a millisecond if it is shorter:

* every event is taken from the queue once, in order, and a turn publishes nothing, or the state
  after the events taken so far, at the time that the clock shows;
* without the last one of a coordinator that is done, any two publications are a `gap` or more
  apart;
* the events of a turn are in a snapshot that is published within a `gap` from that turn, unless the
  clock has not come so far yet, which cannot be if the coordinator is done;
* without the last one, nothing is published unless events were taken since the publication before;
  one of them arrived no earlier than that, or was there when the coordinator began;
* the last snapshot, of all events, is published at the time at which the queue was closed for the
  first time, and the clock does not move on before;
* whatever has happened, the clock can be brought to any later time.

**Proof sketch.** `Clocked.Punctual` is kept by every turn, and that the publications are a `gap`
apart is part of it. What has changed stays due with the next tick, which is at most a `gap` away. A
publication leaves nothing changed, and only what is taken changes something. A closed queue has
something to offer until the end, so that the clock stands still. -/
theorem keeps_cadence {unit : Nat} (hunit : 0 < unit) (interval made begun : Nat)
    (queue : List TaskEvent) (slot : Slot) {turns : List Turn}
    (hturns : (Clocked.start unit interval made begun queue slot).OnTime turns) :
    let s₀ := Clocked.start unit interval made begun queue slot
    let s := s₀.after turns
    let gap := max interval unit
    let events := queue ++ Turn.arrivals turns
    (s₀.applied turns ++ s.coordinator.pending.toList = events ∧
      ∀ before turn after, turns = before ++ turn :: after →
        let b := s₀.after before
        (b.take turn).coordinator.published = b.coordinator.published ∨
        b.Emits turn ⟨b.now, SystemState.empty.fold (s₀.applied (before ++ [turn]))⟩) ∧
    ((if s.coordinator.isDone then s.coordinator.published.tail
      else s.coordinator.published).Pairwise fun later earlier =>
        earlier.time + gap ≤ later.time) ∧
    (∀ before turn after, turns = before ++ turn :: after → (s₀.after before).takes turn ≠ [] →
      let deadline := (s₀.after before).now + gap
      (∃ p ∈ s.coordinator.published, p.time ≤ deadline ∧ ∃ since,
        p.state = SystemState.empty.fold (s₀.applied (before ++ [turn]) ++ since)) ∨
      (s.coordinator.isDone = false ∧ s.now ≤ deadline)) ∧
    (∀ before between turn after p, turns = before ++ between ++ turn :: after →
      (before = [] ∨ ∃ start last q, before = start ++ [last] ∧ (s₀.after start).Emits last q) →
      (s₀.after (before ++ between)).Emits turn p →
      (s₀.after (before ++ between ++ [turn])).coordinator.isDone = false →
      (s₀.after before).applied (between ++ [turn]) ≠ [] ∧
      ((∃ start e rest, before ++ between ++ [turn] = start ++ .send e :: rest ∧
          (s₀.after before).now ≤ (s₀.after start).now) ∨
        (queue ≠ [] ∧ (s₀.after before).now = begun))) ∧
    ((s.coordinator.isDone = true → .close ∈ turns) ∧
      ∀ before after, turns = before ++ .close :: after → .close ∉ before →
        if s.coordinator.isDone then ∃ earlier, s.coordinator.published =
          ⟨(s₀.after before).now, SystemState.empty.fold events⟩ :: earlier
        else s.now = (s₀.after before).now) ∧
    ∀ time, s.now ≤ time →
      ∃ more, (∀ turn ∈ more, turn.isInner = true) ∧ s.OnTime more ∧ (s.after more).now = time := by
  intro s₀ s gap events
  have h₀ : s₀.Punctual gap := .start hunit interval made begun queue slot
  have h : s.Punctual gap := h₀.after hturns
  refine ⟨⟨s₀.applied_append_pending turns, ?holds⟩, h.spaced, ?prompt, ?quiet,
    ⟨fun hd => ?closed, ?last⟩, fun time htime => h.exists_until (by omega) htime⟩
  case holds =>
    intro before turn after hsplit
    exact h₀.publishes (hsplit ▸ hturns)
  case prompt =>
    intro before turn after hsplit hsome
    have hpublished := h₀.published_among (hsplit ▸ hturns) hsome
    rw [← hsplit] at hpublished
    exact hpublished
  case quiet =>
    intro before between turn after p hsplit hstart hp hopen
    have hturns' : s₀.OnTime (before ++ (between ++ [turn])) := by
      refine ((s₀.onTime_append _ after).1 ?_).1
      rwa [List.append_assoc, List.append_assoc, List.singleton_append, ← List.append_assoc,
        ← hsplit]
    rw [List.append_assoc] at hopen ⊢
    obtain ⟨hsome, hfirst⟩ := h₀.applied_between rfl hturns' hstart hp hopen
    refine ⟨hsome, hfirst.imp_right fun hfirst => ⟨?_, hfirst.2⟩⟩
    rintro rfl
    exact hfirst.1 rfl
  case closed => exact ((s₀.isClosed_after_iff turns).1 (h.of_isDone hd).1).resolve_left nofun
  case last =>
    intro before after hsplit hfirst
    have hend := h₀.after_of_close before after rfl (hsplit ▸ hturns) hfirst
    rw [← hsplit] at hend
    rcases hend with ⟨hstill, hnow⟩ | ⟨hd, hlast⟩
    · rw [if_neg (by simp [s, hstill])]
      exact hnow
    · rw [if_pos hd]
      exact hlast

/-- A registered task is published at once, and another at the next tick. Then nothing happens but
an idle tick, so that a third task is published as soon as it is taken, and the tick after that is a
whole interval later; a fourth is published with it. The end does not wait for a tick. -/
def cadenceTurns : List Turn :=
  [.receive, .tick, .send ⟨⟨"b"⟩, .registered "b"⟩, .receive, .wait 50, .tick, .wait 100, .tick,
    .wait 120, .send ⟨⟨"c"⟩, .registered "c"⟩, .receive, .send ⟨⟨"d"⟩, .registered "d"⟩, .receive,
    .wait 170, .tick, .wait 180, .close, .receive]

/-- Five snapshots, of which only the last one follows too soon. -/
theorem keeps_cadence_of_cadenceTurns :
    let s₀ := Clocked.start 1 50 0 0 [⟨⟨"a"⟩, .registered "a"⟩] {}
    let s := s₀.after cadenceTurns
    s₀.OnTime cadenceTurns ∧ s.coordinator.isDone = true ∧
      s.coordinator.published.map (·.time) = [180, 170, 120, 50, 0] ∧
      s.coordinator.published.tail.Pairwise fun later earlier =>
        earlier.time + 50 ≤ later.time := by
  intro s₀ s
  have hturns : s₀.OnTime cadenceTurns := by decide +kernel
  have hd : s.coordinator.isDone = true := by decide +kernel
  have hspaced := (keeps_cadence (by decide) 50 0 0 [⟨⟨"a"⟩, .registered "a"⟩] {} hturns).2.1
  rw [if_pos hd] at hspaced
  exact ⟨hturns, hd, by decide +kernel, hspaced⟩

end Coordinator

end Taskflow
