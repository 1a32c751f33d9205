import Taskflow.Proofs.Run.Turn
set_option autoImplicit false

/-!
# Jobs that get their turns

Nothing forces a job to go on: whoever carries out a run may leave it alone, or stop the clock. If
it gets its turn again and again and the clock does not stop, a job that has asked for a slot comes
to its end, or it stands in the line for ever.

## Main definitions

* `Phase.hasAsked` — a job has asked for a slot.
* `Machine.after` — the machines along a sequence of actions without end.
* `Machine.Served` — along the sequence a job gets its turn again and again, and time passes.

## Main results

* `Machine.Reached.rank_of_steps` — small steps lower the rank of a job, or leave it where it is.
* `Machine.Served.ends` — a job that is served ends, unless it stands in the line for ever.
* `Machine.Served.ends_of_held` — a job that is served ends if it has a slot.
-/

namespace Taskflow

open Relation

/-- Whether job `k` gets its turn with an action. -/
def Action.serves (k : Nat) : Action → Bool
  | .move i _ | .poll i _ => decide (i = k)
  | _ => false

namespace Phase

/-- Whether a job that stands here has asked for a slot, or is about to. -/
def hasAsked : Phase → Bool
  | .waiting .. | .blocking _ | .settling _ none | .ended _ none => false
  | _ => true

/-- The time before which a job that stands here does not go on. -/
def wakeTime : Phase → Nat
  | .attempting _ wake _ | .resting _ wake => wake
  | _ => 0

/-- Whoever has a slot has less before it than whoever stands in the line. -/
lemma below_queued_of_held {t : TaskDefinition} {a : Phase} (h : a.claim = .held) :
    a.Below t .queued := by
  cases a with
  | waiting | blocking | requesting | asking | queued | settling | ended | crashing | crashed =>
    cases h
  | _ => simp [below_iff, rank]

/-- Who holds a slot has asked for it. -/
lemma hasAsked_of_held {a : Phase} (h : a.claim = .held) : a.hasAsked = true := by
  cases a with
  | waiting | blocking | settling | ended => cases h
  | _ => rfl

end Phase

namespace Machine

variable {p : Plan} {j : Job} {a b : Phase} {k : Nat} {m m' : Machine} {c : Option TaskChange}
  {actions : Nat → Action} {n l interval limit total : Nat} {world : Machine}

/-! ### What steps do to a job that has asked -/

/-- Whose attempts are over has asked for a slot. -/
lemma hasAsked_concluded (t : TaskDefinition) (attempts : UInt32) (outcome : TaskOutcome) :
    (concluded t attempts outcome).hasAsked = true := by
  unfold concluded
  split <;> rfl

/-- A job that has asked is not turned away any more. -/
lemma Turn.hasAsked (h : Turn p j m a c b) (ha : a.hasAsked = true) : b.hasAsked = true := by
  cases h with
  | stay => exact ha
  | grant => rfl
  | hear => cases ha
  | move h =>
    cases h with
    | succeed | exhaust | stop => exact hasAsked_concluded _ _ _
    | giveUp | proceed | hearSuccess | hearFailure | hearInterrupt | block => cases ha
    | settle outcome result =>
      cases result with
      | none => cases ha
      | some r => rfl
    | _ => rfl

/-- Job `k` has less before it in machine `m'` than in machine `m`. -/
def Precedes (p : Plan) (k : Nat) (m' m : Machine) : Prop :=
  TransGen WellFoundedRelation.rel (m'.rankOf p k) (m.rankOf p k)

/-- Ranks do not go down for ever. -/
lemma wellFounded_precedes (p : Plan) (k : Nat) : WellFounded (Precedes p k) :=
  InvImage.wf _ WellFoundedRelation.wf.transGen

/-- The rank of a job depends on its phase. -/
lemma rankOf_congr (h : m'.phaseOf? k = m.phaseOf? k) : m'.rankOf p k = m.rankOf p k := by
  rw [rankOf, rankOf, h]

/-- The rank of a job is that of its phase. -/
lemma rankOf_of_phaseOf? (hj : p.jobs[k]? = some j) (ha : m.phaseOf? k = some a) :
    m.rankOf p k = a.rank j.task := by
  simp only [rankOf, hj, ha]

/-- A small step lowers the rank of a job that has asked, or leaves the job where it is. -/
lemma Step.rank_lt (hb : Balanced total m) (hs : Step p m m') (hj : p.jobs[k]? = some j)
    (ha : m.phaseOf? k = some a) (hasked : a.hasAsked = true) :
    m'.phaseOf? k = some a ∨ WellFoundedRelation.rel (m'.rankOf p k) (m.rankOf p k) := by
  cases hs with
  | move hv =>
    rename_i i choices v
    by_cases hk : i = k
    · exact .inr (hk ▸ rank_lt_of_nextMove? hv)
    obtain ⟨j', s, hj', -, -⟩ := moves_of_nextMove? hv
    have hphase := phaseOf?_make_of_ne (m := m) (v := v) hj' hk
    rw [ha] at hphase
    by_cases hheir : m.heir? v.deed = some k
    · obtain rfl : a = .queued := Option.some.inj (ha.symm.trans (hb.phaseOf?_of_heir? hheir))
      rw [if_pos hheir] at hphase
      rw [rankOf_of_phaseOf? hj hphase, rankOf_of_phaseOf? hj ha]
      exact .inr (Phase.below_queued_of_held rfl)
    · exact .inl (hphase.trans (if_neg hheir))
  | arrive hi =>
    rename_i i d unseen arrived outcome
    refine .inl ?_
    rw [phaseOf?_setPhase, ha]
    split
    next hk =>
      obtain rfl := Option.some.inj (ha.symm.trans (hk ▸ hi))
      cases hasked
    next => rfl
  | ambient => exact .inl ha

/-- **Small steps lower the rank of a job that has asked, or leave the job where it is.** -/
theorem Reached.rank_of_steps (hslots : Slots.ofLimit? limit = .ok world.slots)
    (hr : Reached p interval world m) (h : ReflTransGen (Step p) m m') (hj : p.jobs[k]? = some j)
    (ha : m.phaseOf? k = some a) (hasked : a.hasAsked = true) :
    m'.phaseOf? k = some a ∨ Precedes p k m' m := by
  induction h with
  | refl => exact .inl ha
  | tail h hs ih =>
    obtain ⟨b, hb, hbasked⟩ := hr.exists_phase_of_steps hslots h (I := fun b => b.hasAsked = true)
      (fun hturn => hturn.hasAsked) ha hasked
    have hbalanced := Reached.balanced hslots (hr.trans h)
    rcases ih with hstill | hlower
    · rcases hs.rank_lt hbalanced hj hstill hasked with hsame | hlt
      · exact .inl hsame
      · rw [rankOf_congr (hstill.trans ha.symm)] at hlt
        exact .inr (.single hlt)
    · rcases hs.rank_lt hbalanced hj hb hbasked with hsame | hlt
      · rw [Precedes, rankOf_congr (hsame.trans hb.symm)]
        exact .inr hlower
      · exact .inr (.head hlt hlower)

/-! ### Turns -/

/-- A job that has asked can go on when its time has come, unless it stands in the line. -/
lemma exists_nextMove?_of_hasAsked (choices : Choices) (hj : p.jobs[k]? = some j)
    (ha : m.phaseOf? k = some a) (hasked : a.hasAsked = true) (hended : a.hasEnded = false)
    (hqueued : a ≠ .queued) (hwake : a.wakeTime ≤ m.now) (hm : m.interrupted = false) :
    ∃ v, m.nextMove? p k choices = some v := by
  obtain ⟨s, hs, rfl⟩ := Option.map_eq_some_iff.1 ha
  rw [nextMove?, hj, hs]
  obtain ⟨phase, startedAt, captured⟩ := s
  cases phase with
  | waiting | blocking => cases hasked
  | queued => exact absurd rfl hqueued
  | ended | crashed => cases hended
  | attempting n wake rest =>
    have hwake : wake ≤ m.now := hwake
    exact ⟨_, if_pos ⟨hwake, by simp [hm]⟩⟩
  | resting n wake =>
    have hwake : wake ≤ m.now := hwake
    exact ⟨_, if_pos ⟨hwake, by simp [hm]⟩⟩
  | _ => exact ⟨_, rfl⟩

/-- A turn of a job that can go on lowers its rank. -/
lemma precedes_step {x : Action} (hx : x.serves k = true)
    (hnext : ∀ choices, ∃ v, m.nextMove? p k choices = some v) : Precedes p k (m.step p x) m := by
  cases x with
  | move i choices =>
    obtain rfl : i = k := by simpa [Action.serves] using hx
    obtain ⟨v, hv⟩ := hnext choices
    rw [Precedes, step, rankOf_congr (closeIfEnded_phaseOf? _ _), move, hv]
    exact .single (rank_lt_of_nextMove? hv)
  | poll i choices =>
    obtain rfl : i = k := by simpa [Action.serves] using hx
    obtain ⟨v, hv⟩ := hnext choices
    have hfirst : Precedes p i (m.make p i v) m := .single (rank_lt_of_nextMove? hv)
    rw [Precedes, step, rankOf_congr (closeIfEnded_phaseOf? _ _), poll_of_some hv]
    split
    · exact hfirst
    · exact poll_keeps (P := fun m' => Precedes p i m' m)
        (fun _ _ hv' hlower => .head (rank_lt_of_nextMove? hv') hlower) hfirst
  | _ => cases hx

/-- No action turns the clock back. -/
lemma now_le_step (x : Action) : m.now ≤ (m.step p x).now := by
  have hmake : ∀ {m' : Machine} {i choices v}, m'.nextMove? p i choices = some v →
      m.now ≤ m'.now → m.now ≤ (m'.make p i v).now := by
    intro m' i choices v hv hle
    obtain ⟨j, -, hj, -, -⟩ := moves_of_nextMove? hv
    exact hle.trans_eq (make_now hj).symm
  cases x with
  | move i choices =>
    rw [step, closeIfEnded_eq]
    exact move_keeps (P := fun m' => m.now ≤ m'.now) (fun _ hv => hmake hv le_rfl) le_rfl
  | poll i choices =>
    rw [step, closeIfEnded_eq]
    exact poll_keeps (P := fun m' => m.now ≤ m'.now) (fun _ _ hv => hmake hv) le_rfl
  | arrive i d =>
    simp only [step, arrive]
    split
    · split <;> exact le_rfl
    · exact le_rfl
  | advance time => exact le_max_left m.now time
  | trigger | receive | tick => exact le_rfl

/-! ### Sequences of actions -/

/-- The machine after the first `n` actions of a sequence. -/
def after (p : Plan) (m : Machine) (actions : Nat → Action) : Nat → Machine
  | 0 => m
  | n + 1 => (after p m actions n).step p (actions n)

/-- More of the actions are more small steps. -/
lemma steps_after (hle : n ≤ l) :
    ReflTransGen (Step p) (after p m actions n) (after p m actions l) := by
  induction hle with
  | refl => exact .refl
  | step _ ih => exact ih.trans (steps_step _)

/-- Every machine on the way is reached. -/
lemma Reached.through (hr : Reached p interval world m) (n : Nat) :
    Reached p interval world (after p m actions n) := hr.trans (steps_after (Nat.zero_le n))

/-- The clock does not go back. -/
lemma now_le_after (hle : n ≤ l) : (after p m actions n).now ≤ (after p m actions l).now := by
  induction hle with
  | refl => exact le_rfl
  | step _ ih => exact ih.trans (now_le_step _)

/-- Along a sequence of actions from machine `m`, job `k` gets its turn again and again, the clock
passes every time, and the run is not interrupted. -/
structure Served (p : Plan) (k : Nat) (m : Machine) (actions : Nat → Action) : Prop where
  turns : ∀ n, ∃ l, n ≤ l ∧ (actions l).serves k = true
  clock : ∀ time, ∃ n, time ≤ (after p m actions n).now
  calm : ∀ n, (after p m actions n).interrupted = false

section Served

variable (hslots : Slots.ofLimit? limit = .ok world.slots) (hr : Reached p interval world m)
  (h : Served p k m actions) (hj : p.jobs[k]? = some j)
include hslots hr h hj

/-- A job that is served gets on, unless it has ended or stands in the line. -/
lemma Served.exists_precedes (ha : (after p m actions n).phaseOf? k = some a)
    (hasked : a.hasAsked = true) (hended : a.hasEnded = false) (hqueued : a ≠ .queued) :
    ∃ l, n ≤ l ∧ Precedes p k (after p m actions l) (after p m actions n) := by
  -- a turn of the job after its time has come
  obtain ⟨n', hclock⟩ := h.clock a.wakeTime
  obtain ⟨l, hl, hserves⟩ := h.turns (max n n')
  have hrn : Reached p interval world (after p m actions n) := hr.through n
  have hnl : n ≤ l := (le_max_left n n').trans hl
  rcases hrn.rank_of_steps hslots (steps_after hnl) hj ha hasked with hstill | hlower
  · refine ⟨l + 1, hnl.trans (Nat.le_succ l), ?_⟩
    have hwake := hclock.trans (now_le_after ((le_max_right n n').trans hl))
    have hstep := precedes_step hserves fun choices =>
      exists_nextMove?_of_hasAsked choices hj hstill hasked hended hqueued hwake (h.calm l)
    rwa [Precedes, rankOf_congr (hstill.trans ha.symm)] at hstep
  · exact ⟨l, hnl, hlower⟩

/-- **A job that is served and has asked for a slot ends**, unless it stands in the line for ever.

**Proof sketch.** Induction on the rank of the job. Wherever it stands, it gets on, or it stays in
the line. -/
theorem Served.ends (ha : (after p m actions n).phaseOf? k = some a) (hasked : a.hasAsked = true) :
    (∃ l, n ≤ l ∧ ∀ l', l ≤ l' → (after p m actions l').phaseOf? k = some .queued) ∨
      ∃ l b, n ≤ l ∧ (after p m actions l).phaseOf? k = some b ∧ b.hasAsked = true ∧
        b.hasEnded = true := by
  generalize hx : after p m actions n = x at ha
  induction x using (wellFounded_precedes p k).induction generalizing n a with
  | _ x ih =>
    subst hx
    have hrn : Reached p interval world (after p m actions n) := hr.through n
    by_cases hended : a.hasEnded = true
    · exact .inr ⟨n, a, le_rfl, ha, hasked, hended⟩
    by_cases hforever : a = .queued ∧
        ∀ l, n ≤ l → (after p m actions l).phaseOf? k = some .queued
    · exact .inl ⟨n, le_rfl, hforever.2⟩
    obtain ⟨l, hnl, hlower⟩ :
        ∃ l, n ≤ l ∧ Precedes p k (after p m actions l) (after p m actions n) := by
      by_cases hqueued : a = .queued
      · subst hqueued
        obtain ⟨l, hl⟩ := not_forall.1 fun hall => hforever ⟨rfl, hall⟩
        obtain ⟨hnl, hl⟩ := Classical.not_imp.1 hl
        exact ⟨l, hnl, (hrn.rank_of_steps hslots (steps_after hnl) hj ha hasked).resolve_left hl⟩
      · exact h.exists_precedes hslots hr hj ha hasked (by simpa using hended) hqueued
    obtain ⟨b, hb, hbasked⟩ := hrn.exists_phase_of_steps hslots (steps_after hnl)
      (I := fun b => b.hasAsked = true) (fun hturn => hturn.hasAsked) ha hasked
    exact (ih _ hlower hbasked rfl hb).imp (fun ⟨l', hl', h⟩ => ⟨l', hnl.trans hl', h⟩)
      (fun ⟨l', b, hl', h⟩ => ⟨l', b, hnl.trans hl', h⟩)

/-- **A job that is served and has a slot ends.** -/
theorem Served.ends_of_held (ha : (after p m actions n).phaseOf? k = some a)
    (hheld : a.claim = .held) : ∃ l b, n ≤ l ∧ (after p m actions l).phaseOf? k = some b ∧
      b.hasAsked = true ∧ b.hasEnded = true := by
  refine (h.ends hslots hr hj ha (Phase.hasAsked_of_held hheld)).resolve_left ?_
  rintro ⟨l, hnl, hqueued⟩
  have hrn : Reached p interval world (after p m actions n) := hr.through n
  have hl := hqueued l le_rfl
  rcases hrn.rank_of_steps hslots (steps_after hnl) hj ha (Phase.hasAsked_of_held hheld) with
    hstill | hlower
  · obtain rfl := Option.some.inj (hstill.symm.trans hl)
    cases hheld
  · rw [Precedes, rankOf_of_phaseOf? hj hl, rankOf_of_phaseOf? hj ha] at hlower
    have hbelow : WellFoundedRelation.rel (a.rank j.task) (Phase.queued.rank j.task) :=
      Phase.below_queued_of_held hheld
    exact WellFoundedRelation.wf.transGen.asymmetric _ _ hlower (.single hbelow)

end Served

end Machine

end Taskflow
