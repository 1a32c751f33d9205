import Taskflow.Proofs.State.Cadence
import Taskflow.State.Feed
set_option autoImplicit false

/-!
# Feeding a coordinator is on time

A coordinator that is fed with deliveries is polled whenever something arrives, and before that if
something is due; the ticks at which nothing would happen are left out. This is a way to serve it on
a clock that waits for whatever can be served, so that what is known of such clocks holds of it.

## Main definitions

* `Coordinator.Clocked.Leads` — from here to there on time.

## Main results

* `Coordinator.Clocked.Punctual.rests_pollLoop` — a poll leaves nothing to be served.
* `Coordinator.Clocked.Punctual.leads_skipTicks` — the ticks that are left out are idle.
* `Feed.exists_onTime` — feeding a coordinator is on time.
* `Feed.pairwise_published` — so what is fed is not published too often.
-/

namespace Taskflow

namespace Coordinator

namespace Clocked

variable {s s' s'' : Clocked} {gap time : Nat} {events more : List TaskEvent}

/-- On time, one comes from `s` to `s'` while `events` arrive. -/
def Leads (s : Clocked) (events : List TaskEvent) (s' : Clocked) : Prop :=
  ∃ turns, s.OnTime turns ∧ Turn.arrivals turns = events ∧ s.after turns = s'

namespace Leads

/-- One comes to where one is at once. -/
protected lemma refl (s : Clocked) : s.Leads [] s := ⟨[], trivial, rfl, rfl⟩

/-- Ways on time are taken one after the other. -/
lemma trans (h : s.Leads events s') (h' : s'.Leads more s'') : s.Leads (events ++ more) s'' := by
  obtain ⟨turns, hturns, rfl, rfl⟩ := h
  obtain ⟨turns', hturns', rfl, rfl⟩ := h'
  exact ⟨turns ++ turns', (onTime_append s turns turns').2 ⟨hturns, hturns'⟩,
    List.filterMap_append, after_append s turns turns'⟩

/-- A turn that is admitted is on time. -/
lemma of_turn (turn : Turn) (h : s.Admits turn) : s.Leads turn.event?.toList (s.take turn) :=
  ⟨[turn], ⟨h, trivial⟩, by cases hturn : turn.event? <;> simp [Turn.arrivals, hturn], rfl⟩

/-- A way on time keeps a coordinator punctual. -/
lemma punctual (h : s.Leads events s') (hs : s.Punctual gap) : s'.Punctual gap := by
  obtain ⟨turns, hturns, -, rfl⟩ := h
  exact hs.after hturns

end Leads

/-! ### Polling -/

/-- Polling serves the sources at one instant. -/
lemma leads_pollLoop (s : Clocked) (fuel : Nat) :
    s.Leads [] ⟨s.coordinator.pollLoop s.now fuel, s.now⟩ := by
  induction fuel generalizing s with
  | zero => exact .refl s
  | succ fuel ih =>
    rw [pollLoop]
    split
    · exact (Leads.of_turn .receive trivial).trans (ih (s.take .receive))
    · split
      · exact (Leads.of_turn .tick trivial).trans (ih (s.take .tick))
      · exact .refl s

/-- Nothing is served if there is nothing to be served. -/
lemma pollLoop_of_idle (hidle : s.coordinator.hasInput = false)
    (hearly : s.coordinator.isDone = false → s.now < s.coordinator.nextTick) (fuel : Nat) :
    s.coordinator.pollLoop s.now fuel = s.coordinator := by
  cases fuel with
  | zero => rfl
  | succ fuel =>
    rw [pollLoop, if_neg (by simp [hidle]), if_neg]
    rintro ⟨hopen, hdue⟩
    exact absurd hdue (Nat.not_le.2 (hearly (by simpa using hopen)))

/-- How many rounds a poll takes at most: one for each event that waits, one for the end of the
queue and one for a due tick. -/
def rounds (s : Clocked) : Nat :=
  s.coordinator.pending.size + (if s.coordinator.isDone then 0 else 1) +
    if s.coordinator.nextTick ≤ s.now then 1 else 0

/-- Serving the queue is one round. -/
lemma Punctual.rounds_receive_lt (h : s.Punctual gap) (hgap : 0 < gap)
    (hinput : s.coordinator.hasInput = true) : (s.take .receive).rounds < s.rounds := by
  rcases receive_effect s.coordinator s.now with
    ⟨hidle, -⟩ | ⟨hopen, -, -, heq⟩ | ⟨hopen, hsome, -, heq⟩ | ⟨hopen, hsome, -, heq⟩
  · rw [hinput] at hidle
    cases hidle
  · simp [rounds, Clocked.take, heq, Coordinator.publish, hopen]
  · have hless := size_pending_receive_lt hopen hsome
    have hdone : (s.take .receive).coordinator.isDone = s.coordinator.isDone := by
      rw [Clocked.take, heq]
      simp only [Coordinator.publish, takeBatch_isDone]
    have hlate : ¬ (s.take .receive).coordinator.nextTick ≤ (s.take .receive).now := by
      have hgap' := h.interval_eq
      rw [Clocked.take, heq]
      simp only
      omega
    rw [rounds, rounds, hdone, if_neg hlate]
    omega
  · have hless := size_pending_receive_lt hopen hsome
    have hdone : (s.take .receive).coordinator.isDone = s.coordinator.isDone := by
      rw [Clocked.take, heq]
      exact takeBatch_isDone _
    have hnext : (s.take .receive).coordinator.nextTick = s.coordinator.nextTick := by
      rw [Clocked.take, heq]
      exact takeBatch_nextTick _
    rw [rounds, rounds, hdone, hnext, show (s.take .receive).now = s.now from rfl]
    omega

/-- A due tick is one round. -/
lemma Punctual.rounds_tick_lt (h : s.Punctual gap) (hgap : 0 < gap)
    (hopen : s.coordinator.isDone = false) (hdue : s.coordinator.nextTick ≤ s.now) :
    (s.take .tick).rounds < s.rounds := by
  have hlate : ¬ (s.take .tick).coordinator.nextTick ≤ (s.take .tick).now := by
    rw [h.nextTick_tick hopen hdue, show (s.take .tick).now = s.now from rfl]
    omega
  rw [rounds, rounds, if_pos hdue, if_neg hlate]
  simp [Clocked.take]

/-- **A poll leaves nothing to be served.** -/
lemma Punctual.rests_pollLoop {fuel : Nat} (h : s.Punctual gap) (hgap : 0 < gap)
    (hfuel : s.rounds ≤ fuel) :
    let c := s.coordinator.pollLoop s.now fuel
    c.hasInput = false ∧ (c.isDone = false → s.now < c.nextTick) := by
  induction fuel generalizing s with
  | zero =>
    have hd : s.coordinator.isDone = true := by
      by_contra hopen
      rw [rounds, if_neg hopen] at hfuel
      omega
    exact ⟨hasInput_of_isDone hd, fun hopen => by rw [pollLoop, hd] at hopen; cases hopen⟩
  | succ fuel ih =>
    rw [pollLoop]
    split
    next hinput =>
      have hless := h.rounds_receive_lt hgap hinput
      exact ih (s := s.take .receive) (h.take trivial) (by omega)
    next hidle =>
      split
      next hdue =>
        have hless := h.rounds_tick_lt hgap (by simpa using hdue.1) hdue.2
        exact ih (s := s.take .tick) (h.take trivial) (by omega)
      next hearly =>
        refine ⟨by simpa using hidle, fun hopen => ?_⟩
        rw [not_and, Nat.not_le] at hearly
        exact hearly (by simpa using hopen)

/-- A poll is on time, and leaves nothing to be served. -/
lemma Punctual.leads_poll (h : s.Punctual gap) (hgap : 0 < gap) :
    let c := s.coordinator.poll s.now
    s.Leads [] ⟨c, s.now⟩ ∧ c.hasInput = false ∧ (c.isDone = false → s.now < c.nextTick) := by
  refine ⟨leads_pollLoop s _, h.rests_pollLoop hgap ?_⟩
  rw [rounds]
  split <;> split <;> omega

/-- If only a tick is due, a poll is that tick. -/
lemma Punctual.poll_of_due (h : s.Punctual gap) (hgap : 0 < gap)
    (hidle : s.coordinator.hasInput = false) (hopen : s.coordinator.isDone = false)
    (hdue : s.coordinator.nextTick ≤ s.now) :
    s.coordinator.poll s.now = s.coordinator.tick s.now := by
  have hidle' : (s.take .tick).coordinator.hasInput = false := (hasInput_tick _ _).trans hidle
  rw [poll, pollLoop, if_neg (by simp [hidle]), if_pos (by simp [hopen, hdue])]
  refine pollLoop_of_idle (s := s.take .tick) hidle' (fun _ => ?_) _
  rw [h.nextTick_tick hopen hdue]
  exact Nat.lt_add_of_pos_right hgap

/-! ### Ticks that are left out -/

/-- As long as nothing has changed, the ticks only move each other on. -/
lemma Punctual.leads_idle (h : s.Punctual gap) (hidle : s.coordinator.hasInput = false)
    (hopen : s.coordinator.isDone = false) (hclean : s.coordinator.dirty = false) (n : Nat) :
    ∃ now, now ≤ max s.now (s.coordinator.nextTick + n * gap - gap) ∧
      s.Leads [] ⟨{ s.coordinator with nextTick := s.coordinator.nextTick + n * gap }, now⟩ := by
  induction n generalizing s with
  | zero =>
    refine ⟨s.now, Nat.le_max_left _ _, ?_⟩
    rw [Nat.zero_mul, Nat.add_zero]
    exact .refl s
  | succ n ih =>
    have hwait : s.Admits (.wait s.coordinator.nextTick) :=
      ⟨h.now_le hopen, hidle, .inr (Nat.le_refl _)⟩
    let s' : Clocked := ⟨{ s.coordinator with nextTick := s.coordinator.nextTick + gap },
      s.coordinator.nextTick⟩
    have htick : s.Leads [] s' := by
      have hs' : (s.take (.wait s.coordinator.nextTick)).take .tick = s' := by
        simp only [Clocked.take, tick_of_due hopen, hclean, h.interval_eq, s']
        rfl
      rw [← hs']
      exact (Leads.of_turn _ hwait).trans (Leads.of_turn .tick trivial)
    obtain ⟨now, hnow, hrest⟩ := ih (htick.punctual h) hidle hopen hclean
    have hsum : s.coordinator.nextTick + (n + 1) * gap =
        s.coordinator.nextTick + gap + n * gap := by
      rw [Nat.succ_mul]
      omega
    rw [hsum]
    refine ⟨now, ?_, htick.trans hrest⟩
    have hnow' : now ≤ max s.coordinator.nextTick (s.coordinator.nextTick + gap + n * gap - gap) :=
      hnow
    omega

/-- **The ticks that are left out are idle.** -/
lemma Punctual.leads_skipTicks (h : s.Punctual gap) (hgap : 0 < gap)
    (hidle : s.coordinator.hasInput = false) (hopen : s.coordinator.isDone = false)
    (hdue : s.coordinator.dirty = true → time ≤ s.coordinator.nextTick) (htime : s.now ≤ time) :
    s.Leads [] ⟨s.coordinator.skipTicks time, time⟩ := by
  rw [skipTicks]
  split
  next hearly =>
    exact .of_turn (.wait time) ⟨htime, hidle, .inr (hearly.elim hdue id)⟩
  next hlate =>
    rw [not_or, Bool.not_eq_true, Nat.not_le] at hlate
    obtain ⟨hclean, hlate⟩ := hlate
    obtain rfl := h.interval_eq
    generalize hn : (time - s.coordinator.nextTick + s.coordinator.interval - 1) /
      s.coordinator.interval = n
    -- the last of the ticks is due before `time`, and the one after it is not
    have hdiv := Nat.div_add_mod (time - s.coordinator.nextTick + s.coordinator.interval - 1)
      s.coordinator.interval
    have hmod := Nat.mod_lt (time - s.coordinator.nextTick + s.coordinator.interval - 1) hgap
    rw [hn, Nat.mul_comm] at hdiv
    obtain ⟨now, hnow, hticks⟩ := h.leads_idle hidle hopen hclean n
    have hwait : Admits ⟨{ s.coordinator with
        nextTick := s.coordinator.nextTick + n * s.coordinator.interval }, now⟩ (.wait time) :=
      ⟨by change now ≤ time; omega, hidle, .inr (by
        change time ≤ s.coordinator.nextTick + n * s.coordinator.interval
        omega)⟩
    exact hticks.trans (.of_turn _ hwait)

/-! ### Deliveries -/

/-- Events arrive together. -/
lemma leads_sends (hopen : s.coordinator.isClosed = false) (events : List TaskEvent) :
    s.Leads events ⟨events.foldl Coordinator.send s.coordinator, s.now⟩ := by
  induction events generalizing s with
  | nil => exact .refl s
  | cons e rest ih => exact (Leads.of_turn (.send e) hopen).trans (ih (s := s.take (.send e)) hopen)

end Clocked

/-- Sending does not close the queue. -/
@[simp] lemma isClosed_foldl_send (c : Coordinator) (events : List TaskEvent) :
    (events.foldl send c).isClosed = c.isClosed := by
  induction events generalizing c with
  | nil => rfl
  | cons e rest ih => exact ih (c.send e)

/-- Polling does not close the queue. -/
@[simp] lemma isClosed_pollLoop (now fuel : Nat) (c : Coordinator) :
    (c.pollLoop now fuel).isClosed = c.isClosed := by
  induction fuel generalizing c with
  | zero => rfl
  | succ fuel ih =>
    rw [pollLoop]
    split
    · rw [ih, isClosed_receive]
    · split
      · rw [ih, isClosed_tick]
      · rfl

/-- Leaving out ticks does not close the queue. -/
@[simp] lemma isClosed_skipTicks (c : Coordinator) (time : Nat) :
    (c.skipTicks time).isClosed = c.isClosed := by
  unfold skipTicks
  split <;> rfl

end Coordinator

namespace Feed

open Coordinator

variable {f : Feed} {gap now time : Nat}

/-- A coordinator that is fed, between two deliveries: it is on time, and its open queue has nothing
to offer. -/
structure Waits (gap now : Nat) (f : Feed) : Prop where
  punctual : Clocked.Punctual gap ⟨f.coordinator, now⟩
  hasInput_eq : f.coordinator.hasInput = false
  isClosed_eq : f.coordinator.isClosed = false

namespace Waits

/-- Who waits is not done. -/
lemma isDone_eq (h : f.Waits gap now) : f.coordinator.isDone = false := by
  rw [← Bool.not_eq_true]
  intro hd
  have hclosed := (h.punctual.of_isDone hd).1
  rw [show (Clocked.mk f.coordinator now).coordinator = f.coordinator from rfl,
    h.isClosed_eq] at hclosed
  cases hclosed

/-- The clock comes up to the time of the next delivery. -/
lemma comeTo (h : f.Waits gap now) (hgap : 0 < gap) (htime : now ≤ time) :
    Clocked.Leads ⟨f.coordinator, now⟩ [] ⟨(f.comeTo time).coordinator, time⟩ ∧
      (f.comeTo time).coordinator.isClosed = false := by
  have hopen := h.isDone_eq
  rw [Feed.comeTo]
  refine ⟨?_, by split <;> simp [Feed.poll, Coordinator.poll, h.isClosed_eq]⟩
  split
  next hdue =>
    have hwait : Clocked.Admits ⟨f.coordinator, now⟩ (.wait f.coordinator.nextTick) :=
      ⟨h.punctual.now_le hopen, h.hasInput_eq, .inr (Nat.le_refl _)⟩
    have hthen := h.punctual.take hwait
    have hpoll : f.coordinator.poll f.coordinator.nextTick =
        f.coordinator.tick f.coordinator.nextTick :=
      hthen.poll_of_due hgap h.hasInput_eq hopen (Nat.le_refl _)
    have hclean : (f.coordinator.tick f.coordinator.nextTick).dirty = false := by
      rw [tick_of_due hopen, if_pos hdue.1]
      rfl
    have htick : Clocked.Punctual gap
        ⟨f.coordinator.tick f.coordinator.nextTick, f.coordinator.nextTick⟩ :=
      hthen.take (show Clocked.Admits _ .tick from trivial)
    have hskip := htick.leads_skipTicks hgap ((hasInput_tick _ _).trans h.hasInput_eq)
      ((tick_isDone _ _).trans hopen)
      (fun hdirty => absurd (hclean.symm.trans hdirty) Bool.false_ne_true) (Nat.le_of_lt hdue.2)
    rw [Feed.poll, hpoll]
    exact (Clocked.Leads.of_turn _ hwait).trans ((Clocked.Leads.of_turn .tick trivial).trans hskip)
  next hearly =>
    exact h.punctual.leads_skipTicks hgap h.hasInput_eq hopen
      (by simpa using hearly) htime

/-- **A delivery is on time**: the clock comes up to it, its events arrive, the queue is closed with
the last one, and everything is served. -/
lemma deliver (h : f.Waits gap now) (hgap : 0 < gap) (d : Delivery) (htime : now ≤ d.time)
    (isLast : Bool) :
    Clocked.Leads ⟨f.coordinator, now⟩ d.events ⟨(f.deliver d isLast).coordinator, d.time⟩ ∧
      (f.deliver d isLast).coordinator.hasInput = false ∧
      (f.deliver d isLast).coordinator.isClosed = isLast := by
  obtain ⟨hcome, hopen⟩ := h.comeTo hgap htime
  generalize hc : (f.comeTo d.time).coordinator = c at hcome hopen
  have hsends := Clocked.leads_sends (s := ⟨c, d.time⟩) hopen d.events
  generalize hc₁ : d.events.foldl Coordinator.send c = c₁ at hsends
  have hopen₁ : c₁.isClosed = false := by rw [← hc₁, isClosed_foldl_send, hopen]
  have hclose : Clocked.Leads ⟨c₁, d.time⟩ [] ⟨if isLast then c₁.close else c₁, d.time⟩ := by
    cases isLast with
    | true => exact .of_turn .close trivial
    | false => exact .refl _
  have harrive := (hcome.trans hsends).trans hclose
  obtain ⟨hpoll, hidle, -⟩ := (harrive.punctual h.punctual).leads_poll hgap
  have hdeliver : (f.deliver d isLast).coordinator =
      (if isLast then c₁.close else c₁).poll d.time := by
    rw [Feed.deliver, hc, hc₁]
    rfl
  rw [hdeliver]
  refine ⟨by simpa using harrive.trans hpoll, hidle, ?_⟩
  rw [Coordinator.poll, isClosed_pollLoop]
  cases isLast with
  | true => rfl
  | false => exact hopen₁

/-- With the last delivery the coordinator is done. -/
lemma isDone_deliver (h : f.Waits gap now) (hgap : 0 < gap) (d : Delivery) (htime : now ≤ d.time) :
    (f.deliver d true).coordinator.isDone = true := by
  obtain ⟨-, hidle, hclosed⟩ := h.deliver hgap d htime true
  by_contra hopen
  rw [hasInput_eq_true_iff.2 ⟨by simpa using hopen, .inr hclosed⟩] at hidle
  cases hidle

/-- **Deliveries are on time**, one after the other, and with the last one the coordinator is done.
Without any, the queue is closed at time zero. -/
lemma deliverAll {script : List Delivery} (h : f.Waits gap now) (hgap : 0 < gap)
    (hnone : script = [] → now = 0) (hsorted : script.Pairwise fun d e => d.time ≤ e.time)
    (hfirst : ∀ d ∈ script, now ≤ d.time) :
    ∃ later, Clocked.Leads ⟨f.coordinator, now⟩ (script.flatMap (·.events))
      ⟨(f.deliverAll script).coordinator, later⟩ ∧
      (f.deliverAll script).coordinator.isDone = true := by
  induction script generalizing f now with
  | nil =>
    have hstart : now ≤ 0 := Nat.le_of_eq (hnone rfl)
    exact ⟨0, (h.deliver hgap ⟨0, []⟩ hstart true).1, h.isDone_deliver hgap _ hstart⟩
  | cons d rest ih =>
    have hd := hfirst d List.mem_cons_self
    cases rest with
    | nil =>
      have hleads := (h.deliver hgap d hd true).1
      rw [← List.append_nil d.events] at hleads
      exact ⟨d.time, hleads, h.isDone_deliver hgap d hd⟩
    | cons e rest =>
      obtain ⟨hlate, hsorted⟩ := List.pairwise_cons.1 hsorted
      obtain ⟨hleads, hidle, hopen⟩ := h.deliver hgap d hd false
      have hwaits : (f.deliver d false).Waits gap d.time :=
        ⟨hleads.punctual h.punctual, hidle, hopen⟩
      obtain ⟨later, hrest, hdone⟩ := ih hwaits (by simp) hsorted hlate
      exact ⟨later, hleads.trans hrest, hdone⟩

end Waits

/-! ### Joined deliveries -/

/-- Joining gives no new times. -/
lemma exists_time_of_mem_joined {script : List Delivery} {e : Delivery} (h : e ∈ joined script) :
    ∃ d ∈ script, d.time = e.time := by
  induction script generalizing e with
  | nil => cases h
  | cons d rest ih =>
    rw [joined] at h
    have hrest (hmem : e ∈ joined rest) : ∃ d' ∈ d :: rest, d'.time = e.time := by
      obtain ⟨d', hd', htime⟩ := ih hmem
      exact ⟨d', List.mem_cons_of_mem _ hd', htime⟩
    split at h
    next first others hjoined =>
      split at h
      · rcases List.mem_cons.1 h with rfl | hmem
        · exact ⟨d, List.mem_cons_self, rfl⟩
        · exact hrest (hjoined ▸ List.mem_cons_of_mem _ hmem)
      · rcases List.mem_cons.1 h with rfl | hmem
        · exact ⟨e, List.mem_cons_self, rfl⟩
        · exact hrest (hjoined ▸ hmem)
    next =>
      rw [List.mem_singleton.1 h]
      exact ⟨d, List.mem_cons_self, rfl⟩

/-- Joining loses no events. -/
lemma flatMap_joined (script : List Delivery) :
    (joined script).flatMap (·.events) = script.flatMap (·.events) := by
  induction script with
  | nil => rfl
  | cons d rest ih =>
    rw [joined, List.flatMap_cons, ← ih]
    split
    next e others hjoined =>
      rw [hjoined]
      split <;> simp
    next hjoined =>
      rw [hjoined]
      simp

/-- Joining keeps deliveries in the order of their times. -/
lemma pairwise_joined {script : List Delivery} (h : script.Pairwise fun d e => d.time ≤ e.time) :
    (joined script).Pairwise fun d e => d.time ≤ e.time := by
  induction script with
  | nil => exact List.Pairwise.nil
  | cons d rest ih =>
    obtain ⟨hfirst, hrest⟩ := List.pairwise_cons.1 h
    have hlate : ∀ e ∈ joined rest, d.time ≤ e.time := fun e he => by
      obtain ⟨d', hd', htime⟩ := exists_time_of_mem_joined he
      exact htime ▸ hfirst d' hd'
    have hsorted := ih hrest
    rw [joined]
    split
    next e others hjoined =>
      rw [hjoined] at hlate hsorted
      split
      · exact List.pairwise_cons.2 ⟨fun x hx => hlate x (List.mem_cons_of_mem _ hx),
          (List.pairwise_cons.1 hsorted).2⟩
      · exact List.pairwise_cons.2 ⟨hlate, hsorted⟩
    next => exact List.pairwise_singleton _ _

/-- **Feeding a coordinator is on time.** If the deliveries come in the order of their times, what a
coordinator does with them it also does on a clock that waits for whatever can be served, with the
same events, up to the end. -/
theorem exists_onTime (interval : Nat) {script : List Delivery}
    (h : script.Pairwise fun d e => d.time ≤ e.time) :
    ∃ turns, (Clocked.start 1 interval 0 0 [] {}).OnTime turns ∧
      Turn.arrivals turns = script.flatMap (·.events) ∧
      ((Clocked.start 1 interval 0 0 [] {}).after turns).coordinator =
        (run interval script).coordinator ∧
      (run interval script).coordinator.isDone = true := by
  have hstart : Clocked.start 1 interval 0 0 [] {} = ⟨Coordinator.start interval 0, 0⟩ := by
    simp [Clocked.start, queued, Coordinator.start]
  have hwaits : Waits (max interval 1) 0 { coordinator := .start interval 0 } :=
    ⟨hstart ▸ .start Nat.one_pos interval 0 0 [] {}, rfl, rfl⟩
  have hgap : 0 < max interval 1 := by omega
  obtain ⟨later, ⟨turns, hturns, harrivals, hafter⟩, hdone⟩ :=
    hwaits.deliverAll hgap (fun _ => rfl) (pairwise_joined h) fun _ _ => Nat.zero_le _
  rw [hstart]
  exact ⟨turns, hturns, harrivals.trans (flatMap_joined script), by rw [hafter, run], hdone⟩

/-- What is fed is published no more often than once in an interval, but for the last snapshot. -/
theorem pairwise_published (interval : Nat) {script : List Delivery}
    (h : script.Pairwise fun d e => d.time ≤ e.time) :
    (run interval script).coordinator.published.tail.Pairwise fun later earlier =>
      earlier.time + max interval 1 ≤ later.time := by
  obtain ⟨turns, hturns, -, hafter, hdone⟩ := exists_onTime interval h
  have hspaced := ((Clocked.Punctual.start Nat.one_pos interval 0 0 [] {}).after hturns).spaced
  rwa [hafter, if_pos hdone] at hspaced

end Feed

end Taskflow
