import Taskflow.Proofs.Run.Coordination
set_option autoImplicit false

/-!
# Runs in whole polls

Nothing comes in between the moves of a poll. So whoever looks at a run between two polls finds no
job where a poll goes on at once, such as one that is about to tell that it starts or is blocked, or
whose next attempt is to begin. In a run that is interrupted every job that is polled comes to its
end, or to its report and with another poll to its end.

## Main definitions

* `Action.isWhole`, `Action.isPollOf` — actions that poll jobs, and do not move them.
* `Phase.isPassing` — where a poll does not stop.
* `Machine.Polls` — how far a poll may have come.
* `Machine.Parked` — no job stands where a poll does not stop.
* `Machine.Poised` — no job is about to start or to be blocked.
* `Phase.isClosing` — the attempts of a job are over.
* `Phase.pollsLeft` — how many polls a job needs in an interrupted run.
* `Machine.ClosesQueue` — the queue is not left open.

## Main results

* `Machine.Polls.poll_eq` — a poll goes on from everything that it comes through.
* `Machine.parked_run` — between whole polls no job stands where a poll does not stop.
* `Machine.Reached.isClosing_of_polled`, `Machine.Reached.allEnded_of_polled` — in an interrupted
  run one poll of a job ends its attempts, and two polls of every job end the run.
* `Machine.exists_isDone_run` — once the queue is closed, the coordinator only has to serve it.
-/

namespace Taskflow

open Relation

namespace Action

/-- Whether an action leaves no job in the middle of a poll. -/
def isWhole : Action → Bool
  | .move .. => false
  | _ => true

/-- Whether an action polls job `i`. -/
def isPollOf (i : Nat) : Action → Bool
  | .poll k _ => decide (k = i)
  | _ => false

end Action

namespace Phase

/-- Whether a job that stands here will start or be blocked before its poll is over. -/
def isCommitted : Phase → Bool
  | .blocking _ | .asking | .starting => true
  | _ => false

/-- Whether a job that stands here can go on at once, whatever happens, and got here by a move of
its own. -/
def isPassing : Phase → Bool
  | .blocking _ | .asking | .starting | .beginning _ | .playing .. | .judging .. | .completing ..
  | .releasing .. | .settling .. | .crashing _ => true
  | _ => false

/-- Whether a job that stands here has its attempts behind it, or will make none. -/
def isClosing : Phase → Bool
  | .reporting .. | .completing .. | .releasing .. | .settling .. | .ended .. | .crashing _
  | .crashed _ => true
  | _ => false

/-- In an interrupted run, how many polls bring a job that stands here to its end, at most. -/
def pollsLeft (a : Phase) : Nat := if a.hasEnded then 0 else if a.isClosing then 1 else 2

/-- Who is about to start or to be blocked is within a poll. -/
lemma isPassing_of_isCommitted {a : Phase} (h : a.isCommitted = true) : a.isPassing = true := by
  cases a with
  | blocking | asking | starting => rfl
  | _ => cases h

/-- A poll stops before a report is kept. -/
lemma not_isPassing_of_isReporting {a : Phase} (h : a.isReporting = true) :
    a.isPassing = false := by
  cases a with
  | reporting => rfl
  | _ => cases h

/-- Who is about to keep a report has its attempts behind it. -/
lemma isClosing_of_isReporting {a : Phase} (h : a.isReporting = true) : a.isClosing = true := by
  cases a with
  | reporting => rfl
  | _ => cases h

/-- Who has ended has its attempts behind it. -/
lemma isClosing_of_hasEnded {a : Phase} (h : a.hasEnded = true) : a.isClosing = true := by
  cases a with
  | ended | crashed => rfl
  | _ => cases h

/-- Nobody needs more than two polls. -/
lemma pollsLeft_le_two (a : Phase) : a.pollsLeft ≤ 2 := by
  unfold pollsLeft
  split_ifs <;> omega

/-- Who has its attempts behind it needs one poll at most. -/
lemma pollsLeft_le_one {a : Phase} (h : a.isClosing = true) : a.pollsLeft ≤ 1 := by
  rw [pollsLeft, if_pos h]
  split_ifs <;> omega

/-- Who needs no poll has ended. -/
lemma pollsLeft_eq_zero_iff {a : Phase} : a.pollsLeft = 0 ↔ a.hasEnded = true := by
  unfold pollsLeft
  split_ifs <;> simp_all

/-- Who has attempts before it needs two polls. -/
lemma pollsLeft_of_not_isClosing {a : Phase} (h : ¬ a.isClosing = true) : a.pollsLeft = 2 := by
  rw [pollsLeft, if_neg fun hended => h (isClosing_of_hasEnded hended), if_neg h]

end Phase

namespace Machine

variable {p : Plan} {j : Job} {a b : Phase} {i k : Nat} {choices : Choices} {m m' : Machine}
  {v : Move} {c : Option TaskChange} {interval limit : Nat} {world : Machine}

/-! ### What polls come through -/

/-- A poll of job `i` comes from one machine through another. -/
def Polls (p : Plan) (i : Nat) (choices : Choices) : Machine → Machine → Prop :=
  ReflTransGen fun m m' => ∃ v, m.nextMove? p i choices = some v ∧ v.phase.isReporting = false ∧
    m' = m.make p i v

/-- **A poll goes on from everything that it comes through.** -/
theorem Polls.poll_eq (h : Polls p i choices m m') :
    m.poll p i choices = m'.poll p i choices := by
  induction h with
  | refl => rfl
  | tail _ hstep ih =>
    obtain ⟨v, hv, hr, rfl⟩ := hstep
    rw [ih, poll_of_some hv, if_neg (by simp [hr])]

/-- The moves of a poll are small steps. -/
lemma Polls.steps (h : Polls p i choices m m') : ReflTransGen (Step p) m m' := by
  induction h with
  | refl => exact .refl
  | tail _ hstep ih =>
    obtain ⟨v, hv, -, rfl⟩ := hstep
    exact ih.tail (.move hv)

/-- Moves that bring no job to its report are part of a poll. -/
lemma polls_iterate (n : Nat) (m : Machine) (h : ∀ k < n, (((move p i choices)^[k] m).nextMove? p i
      choices).any (fun v => !v.phase.isReporting) = true) :
    Polls p i choices m ((move p i choices)^[n] m) := by
  induction n with
  | zero => exact .refl
  | succ n ih =>
    obtain ⟨v, hv, hreport⟩ := (Option.any_eq_true _ _).1 (h n (Nat.lt_succ_self n))
    refine (ih fun k hk => h k (Nat.lt_succ_of_lt hk)).tail ⟨v, hv, by simpa using hreport, ?_⟩
    rw [Function.iterate_succ_apply', move, hv]

/-- After moves of which none brings its job to its report, and the last of which leads to where the
job cannot move, a poll is over. -/
lemma poll_eq_iterate (n : Nat) (m : Machine)
    (h : ∀ k < n, (((move p i choices)^[k] m).nextMove? p i choices).any
      (fun v => !v.phase.isReporting) = true)
    (hnone : (((move p i choices)^[n] m).nextMove? p i choices).isNone = true) :
    m.poll p i choices = (move p i choices)^[n] m := by
  rw [(polls_iterate n m h).poll_eq, poll_of_none (Option.isNone_iff_eq_none.1 hnone)]

/-! ### Between polls -/

/-- No job stands where a poll does not stop. -/
def Parked (m : Machine) : Prop := ∀ k a, m.phaseOf? k = some a → a.isPassing = false

/-- No job but `i` stands where a poll does not stop. -/
def ParkedBut (i : Nat) (m : Machine) : Prop :=
  ∀ k a, i ≠ k → m.phaseOf? k = some a → a.isPassing = false

/-- No job is about to start or to be blocked. -/
def Poised (m : Machine) : Prop := ∀ k a, m.phaseOf? k = some a → a.isCommitted = false

/-- A job that does not move stays where it is, or is given a slot. -/
lemma phaseOf?_make_cases (hv : m.nextMove? p i choices = some v) (hk : i ≠ k)
    (hb : (m.make p i v).phaseOf? k = some b) : b = .granted ∨ m.phaseOf? k = some b := by
  obtain ⟨j, s, hj, -, -⟩ := moves_of_nextMove? hv
  rw [phaseOf?_make_of_ne hj hk] at hb
  split at hb
  · obtain ⟨a, -, rfl⟩ := Option.map_eq_some_iff.1 hb
    exact .inl rfl
  · exact .inr hb

/-- A job that moves leads no other one to where a poll does not stop. -/
lemma ParkedBut.make (h : m.ParkedBut i) (hv : m.nextMove? p i choices = some v) :
    (m.make p i v).ParkedBut i := by
  intro k b hk hb
  rcases phaseOf?_make_cases hv hk hb with rfl | hb
  · rfl
  · exact h k b hk hb

/-- While job `i` is polled, the others stay where a poll stops. -/
lemma Polls.parkedBut (h : Polls p i choices m m') (hm : m.ParkedBut i) : m'.ParkedBut i := by
  induction h with
  | refl => exact hm
  | tail _ hstep ih =>
    obtain ⟨v, hv, -, rfl⟩ := hstep
    exact ih.make hv

/-- Where a poll does not stop, a job can go on. -/
lemma exists_nextMove?_of_isPassing (choices : Choices) (hj : p.jobs[i]? = some j)
    (ha : m.phaseOf? i = some a) (h : a.isPassing = true) :
    ∃ v, m.nextMove? p i choices = some v := by
  obtain ⟨s, hs, rfl⟩ := Option.map_eq_some_iff.1 ha
  rw [nextMove?, hj, hs]
  obtain ⟨phase, startedAt, captured⟩ := s
  cases phase with
  | waiting | requesting | queued | granted | attempting | resting | reporting | ended | crashed =>
    cases h
  | _ => exact ⟨_, rfl⟩

/-- If job `i` does not stand where a poll does not stop either, no job does. -/
lemma ParkedBut.parked (h : m.ParkedBut i)
    (hi : ∀ a, m.phaseOf? i = some a → a.isPassing = false) : m.Parked := by
  intro k a ha
  by_cases hk : i = k
  · exact hi a (hk ▸ ha)
  · exact h k a hk ha

/-- **A poll does not stop where it does not stop**: it goes on until its job has to wait. -/
lemma parked_poll (hr : Reached p interval world m) (h : m.ParkedBut i) :
    (m.poll p i choices).Parked := by
  induction m using poll.induct p i choices with
  | case1 m hnone =>
    rw [poll_of_none hnone]
    refine h.parked fun a ha => ?_
    rw [← Bool.not_eq_true]
    intro hpassing
    obtain ⟨j, hj⟩ := hr.job_of_phaseOf? ha
    obtain ⟨v, hv⟩ := exists_nextMove?_of_isPassing choices hj ha hpassing
    rw [hnone] at hv
    cases hv
  | case2 m v hv hreport =>
    rw [poll_of_some hv, if_pos hreport]
    refine (h.make hv).parked fun a ha => ?_
    obtain rfl : v.phase = a := Option.some.inj ((phaseOf?_make_self hv).symm.trans ha)
    exact Phase.not_isPassing_of_isReporting hreport
  | case3 m v hv hreport ih =>
    rw [poll_of_some hv, if_neg hreport]
    exact ih (hr.tail (.move hv)) (h.make hv)

/-- If all jobs stand where a poll stops, so do all but one. -/
lemma Parked.but (h : m.Parked) (i : Nat) : m.ParkedBut i := fun k a _ ha => h k a ha

/-- Before the first step every job waits, or asks if the run was interrupted. -/
lemma parked_start : (start p interval world).Parked := by
  intro k a ha
  rw [start_phaseOf?] at ha
  obtain ⟨j, -, rfl⟩ := Option.map_eq_some_iff.1 ha
  unfold firstPhase
  split <;> rfl

/-- An action that polls a job, or no job, leaves nobody where a poll does not stop. -/
lemma Parked.step (hr : Reached p interval world m) (h : m.Parked) {x : Action}
    (hx : x.isWhole = true) : (m.step p x).Parked := by
  cases x with
  | move => cases hx
  | poll i choices =>
    intro k a ha
    rw [Machine.step, closeIfEnded_phaseOf?] at ha
    exact parked_poll hr (h.but i) k a ha
  | arrive i d =>
    simp only [Machine.step, arrive]
    split
    · split
      · intro k a ha
        rw [phaseOf?_setPhase] at ha
        split at ha
        · obtain ⟨b, -, rfl⟩ := Option.map_eq_some_iff.1 ha
          rfl
        · exact h k a ha
      · exact h
    · exact h
  | trigger | advance | receive | tick => exact h

/-- **Between whole polls no job stands where a poll does not stop.** -/
theorem parked_run (actions : List Action) (h : ∀ x ∈ actions, x.isWhole = true) :
    ((start p interval world).run p actions).Parked := by
  suffices ∀ m, Reached p interval world m → m.Parked → (m.run p actions).Parked from
    this _ .refl parked_start
  induction actions with
  | nil => exact fun m _ hm => hm
  | cons x rest ih =>
    intro m hr hm
    exact ih (fun y hy => h y (List.mem_cons_of_mem _ hy)) _ (hr.trans (steps_step x))
      (hm.step hr (h x List.mem_cons_self))

/-! ### Polls of an interrupted run -/

/-- Who is closing has no report ahead, other than the one that is kept now. -/
lemma Moves.of_isClosing {s : JobState} (h : Moves p j s m a v) (ha : a.isClosing = true) :
    v.phase.isClosing = true ∧ v.phase.isReporting = false := by
  cases h with
  | keep | complete | release | settle | crash => exact ⟨rfl, rfl⟩
  | _ => cases ha

/-- Who has its attempts behind it never makes another one. -/
lemma Turn.isClosing (h : Turn p j m a c b) (ha : a.isClosing = true) : b.isClosing = true := by
  cases h with
  | stay => exact ha
  | grant => cases ha
  | hear => cases ha
  | move h => exact (h.of_isClosing ha).1

/-- No turn leads away from the end. -/
lemma Turn.pollsLeft_le (h : Turn p j m a c b) : b.pollsLeft ≤ a.pollsLeft := by
  by_cases hclosing : a.isClosing = true
  · by_cases hended : a.hasEnded = true
    · rw [(h.eq_of_hasEnded hended).1]
    · have hone : a.pollsLeft = 1 := by rw [Phase.pollsLeft, if_neg hended, if_pos hclosing]
      rw [hone]
      exact Phase.pollsLeft_le_one (h.isClosing hclosing)
  · rw [Phase.pollsLeft_of_not_isClosing hclosing]
    exact b.pollsLeft_le_two

/-- No step leads away from the end. -/
lemma Reached.pollsLeft_steps (hslots : Slots.ofLimit? limit = .ok world.slots)
    (hr : Reached p interval world m) (h : ReflTransGen (Step p) m m')
    (ha : m.phaseOf? k = some a) : ∃ b, m'.phaseOf? k = some b ∧ b.pollsLeft ≤ a.pollsLeft := by
  exact hr.exists_phase_of_steps hslots h (I := fun b => b.pollsLeft ≤ a.pollsLeft)
    (fun hturn hle => hturn.pollsLeft_le.trans hle) ha (Nat.le_refl _)

/-- In an interrupted run every job can go on that has not ended. -/
lemma exists_nextMove?_of_interrupted (choices : Choices) (hm : m.interrupted = true)
    (hj : p.jobs[i]? = some j) (ha : m.phaseOf? i = some a) (h : a.hasEnded = false) :
    ∃ v, m.nextMove? p i choices = some v := by
  obtain ⟨s, hs, rfl⟩ := Option.map_eq_some_iff.1 ha
  rw [nextMove?, hj, hs]
  obtain ⟨phase, startedAt, captured⟩ := s
  cases phase with
  | waiting unseen arrived => exact ⟨_, if_pos hm⟩
  | queued => exact ⟨_, if_pos hm⟩
  | attempting n wake rest =>
    simp only [moveOf?, whenAttempting, hm, if_true]
    split <;> exact ⟨_, rfl⟩
  | resting n wake =>
    simp only [moveOf?, whenResting, hm, if_true]
    split <;> exact ⟨_, rfl⟩
  | ended | crashed => cases h
  | _ => exact ⟨_, rfl⟩

/-- **In an interrupted run a poll brings a job to its report or to its end**, and one whose
attempts are over to its end. -/
lemma isClosing_poll (choices : Choices) (hr : Reached p interval world m)
    (hm : m.interrupted = true) (ha : m.phaseOf? i = some a) :
    ∃ b, (m.poll p i choices).phaseOf? i = some b ∧ b.isClosing = true ∧
      (a.isClosing = true → b.hasEnded = true) := by
  induction m using poll.induct p i choices generalizing a with
  | case1 m hnone =>
    have hended : a.hasEnded = true := by
      rw [← Bool.not_eq_false]
      intro hgoing
      obtain ⟨j, hj⟩ := hr.job_of_phaseOf? ha
      obtain ⟨v, hv⟩ := exists_nextMove?_of_interrupted choices hm hj ha hgoing
      rw [hnone] at hv
      cases hv
    rw [poll_of_none hnone]
    exact ⟨a, ha, Phase.isClosing_of_hasEnded hended, fun _ => hended⟩
  | case2 m v hv hreport =>
    rw [poll_of_some hv, if_pos hreport]
    refine ⟨v.phase, phaseOf?_make_self hv, Phase.isClosing_of_isReporting hreport, fun hc => ?_⟩
    obtain ⟨j, s, -, hs, hmove⟩ := moves_of_nextMove? hv
    obtain rfl : s.phase = a := Option.some.inj (hs.symm.trans ha)
    rw [(hmove.of_isClosing hc).2] at hreport
    cases hreport
  | case3 m v hv hreport ih =>
    rw [poll_of_some hv, if_neg hreport]
    obtain ⟨b, hb, hclosing, hended⟩ := ih (hr.tail (.move hv))
      ((Step.move hv : Step p m _).interrupted_of hm) (phaseOf?_make_self hv)
    refine ⟨b, hb, hclosing, fun hc => hended ?_⟩
    obtain ⟨j, s, -, hs, hmove⟩ := moves_of_nextMove? hv
    obtain rfl : s.phase = a := Option.some.inj (hs.symm.trans ha)
    exact (hmove.of_isClosing hc).1

/-- A poll brings a job closer to its end. -/
lemma Reached.pollsLeft_poll (hr : Reached p interval world m) (hm : m.interrupted = true)
    (ha : m.phaseOf? i = some a) : ∃ b, (m.poll p i choices).phaseOf? i = some b ∧
      b.pollsLeft ≤ a.pollsLeft - 1 := by
  obtain ⟨b, hb, hclosing, hended⟩ := isClosing_poll choices hr hm ha
  refine ⟨b, hb, ?_⟩
  by_cases hc : a.isClosing = true
  · rw [Phase.pollsLeft_eq_zero_iff.2 (hended hc)]
    exact Nat.zero_le _
  · rw [Phase.pollsLeft_of_not_isClosing hc]
    exact Phase.pollsLeft_le_one hclosing

/-- Of all actions, polls of a job bring it closer to its end, and none leads away from it. -/
lemma Reached.pollsLeft_step (hslots : Slots.ofLimit? limit = .ok world.slots)
    (hr : Reached p interval world m) (hm : m.interrupted = true) (ha : m.phaseOf? i = some a)
    (x : Action) : ∃ b, (m.step p x).phaseOf? i = some b ∧
      b.pollsLeft ≤ a.pollsLeft - if x.isPollOf i then 1 else 0 := by
  by_cases hx : x.isPollOf i = true
  · cases x with
    | poll k choices =>
      obtain rfl : k = i := of_decide_eq_true hx
      rw [if_pos hx, step, closeIfEnded_phaseOf?]
      exact hr.pollsLeft_poll hm ha
    | _ => cases hx
  · rw [if_neg hx]
    exact hr.pollsLeft_steps hslots (steps_step x) ha

/-- Each poll brings a job nearer to its end, whatever happens in between. -/
lemma Reached.pollsLeft_run (hslots : Slots.ofLimit? limit = .ok world.slots)
    (hr : Reached p interval world m) (hm : m.interrupted = true) (ha : m.phaseOf? i = some a)
    (actions : List Action) : ∃ b, (m.run p actions).phaseOf? i = some b ∧
      b.pollsLeft ≤ a.pollsLeft - actions.countP (·.isPollOf i) := by
  induction actions generalizing m a with
  | nil => exact ⟨a, ha, Nat.le_refl _⟩
  | cons x rest ih =>
    obtain ⟨b, hb, hle⟩ := hr.pollsLeft_step hslots hm ha x
    obtain ⟨b', hb', hle'⟩ :=
      ih (hr.trans (steps_step x)) (interrupted_of_steps (steps_step x) hm) hb
    refine ⟨b', hb', ?_⟩
    rw [List.countP_cons]
    omega

/-- After some polls of a job, so many are left at most. -/
lemma Reached.pollsLeft_le_of_run (hslots : Slots.ofLimit? limit = .ok world.slots)
    (hr : Reached p interval world m) (hm : m.interrupted = true) {actions : List Action}
    (hb : (m.run p actions).phaseOf? i = some b) :
    b.pollsLeft ≤ 2 - actions.countP (·.isPollOf i) := by
  have hr' : Reached p interval world (m.run p actions) := hr.trans (steps_run actions)
  obtain ⟨j, hj⟩ := hr'.job_of_phaseOf? hb
  obtain ⟨a, ha⟩ := hr.phaseOf?_of_job hj
  obtain ⟨b', hb', hle⟩ := hr.pollsLeft_run hslots hm ha actions
  obtain rfl : b' = b := Option.some.inj (hb'.symm.trans hb)
  exact hle.trans (Nat.sub_le_sub_right a.pollsLeft_le_two _)

/-- **In an interrupted run a job that is polled has its attempts behind it**, whatever comes before
and after the poll. -/
theorem Reached.isClosing_of_polled (hslots : Slots.ofLimit? limit = .ok world.slots)
    (hr : Reached p interval world m) (hm : m.interrupted = true) {actions : List Action}
    (hpolled : 0 < actions.countP (·.isPollOf i))
    (hb : (m.run p actions).phaseOf? i = some b) : b.isClosing = true := by
  have hle := hr.pollsLeft_le_of_run hslots hm hb
  by_contra hopen
  rw [Phase.pollsLeft_of_not_isClosing hopen] at hle
  omega

/-- **In an interrupted run two polls of every job end it**, whatever comes in between. -/
theorem Reached.allEnded_of_polled (hslots : Slots.ofLimit? limit = .ok world.slots)
    (hr : Reached p interval world m) (hm : m.interrupted = true) {actions : List Action}
    (hpolled : ∀ i < p.jobs.size, 2 ≤ actions.countP (·.isPollOf i)) :
    (m.run p actions).allEnded = true := by
  rw [allEnded_iff]
  intro i b hb
  have hr' : Reached p interval world (m.run p actions) := hr.trans (steps_run actions)
  obtain ⟨j, hj⟩ := hr'.job_of_phaseOf? hb
  have hcount := hpolled i (Array.getElem?_eq_some_iff.1 hj).1
  have hle := hr.pollsLeft_le_of_run hslots hm hb
  exact Phase.pollsLeft_eq_zero_iff.1 (by omega)

/-! ### The end of the queue -/

/-- The queue is closed if all jobs have ended. -/
def ClosesQueue (m : Machine) : Prop := m.allEnded = true → m.coordinator.isClosed = true

/-- Once all jobs have ended and this was looked at, the queue is closed. -/
lemma closesQueue_closeIfEnded (m : Machine) : m.closeIfEnded.ClosesQueue := by
  unfold closeIfEnded
  split
  next => exact fun _ => rfl
  next h => exact fun hall => absurd hall h

/-- At the start of a run it was looked at whether all jobs have ended. -/
lemma closesQueue_start : (start p interval world).ClosesQueue := closesQueue_closeIfEnded _

/-- No action takes the last job to its end and leaves the queue open. -/
lemma ClosesQueue.step (h : m.ClosesQueue) (x : Action) : (m.step p x).ClosesQueue := by
  cases x with
  | move | poll => exact closesQueue_closeIfEnded _
  | arrive i d =>
    intro hall
    simp only [Machine.step, arrive] at hall ⊢
    split at hall
    next unseen arrived outcome hi hd =>
      split at hall
      next hmem =>
        -- who has just heard from another job has not ended
        have hphase := phaseOf?_setPhase m i i (.waiting (unseen.erase d) (arrived ++ [d]))
        rw [if_pos rfl, hi] at hphase
        cases allEnded_iff.1 hall i _ hphase
      next hmem =>
        rw [if_neg hmem]
        exact h hall
    next => exact h hall
  | trigger | advance => exact h
  | receive => exact fun hall => (Coordinator.isClosed_receive _ _).trans (h hall)
  | tick => exact fun hall => (Coordinator.isClosed_tick _ _).trans (h hall)

/-- After every action it was looked at whether all jobs have ended. -/
lemma ClosesQueue.run (h : m.ClosesQueue) (actions : List Action) :
    (m.run p actions).ClosesQueue := by
  induction actions generalizing m with
  | nil => exact h
  | cons x rest ih => exact ih (h.step x)

/-- If only the coordinator goes on, it serves its queue. -/
lemma coordinator_run_receive (n : Nat) (m : Machine) :
    (m.run p (List.replicate n .receive)).coordinator =
      m.coordinator.serveAll (List.replicate n (.receive m.now)) := by
  induction n generalizing m with
  | zero => rfl
  | succ n ih => exact ih (m.step p .receive)

/-- When all jobs have ended, the coordinator only has to serve its queue. -/
lemma exists_isDone_run (hclosed : m.coordinator.isClosed = true) :
    ∃ n, (m.run p (List.replicate n .receive)).coordinator.isDone = true := by
  by_cases hdone : m.coordinator.isDone = true
  · exact ⟨0, hdone⟩
  · refine ⟨m.coordinator.pending.size + 1, ?_⟩
    rw [coordinator_run_receive, Coordinator.isDone_serveAll_iff (by simpa using hdone) hclosed
      fun s hs => by rw [List.eq_of_mem_replicate hs]; rfl]
    rw [List.countP_replicate]
    simp only [Coordinator.Service.isReceive, Coordinator.batchSize, if_true]
    omega

end Machine

end Taskflow
