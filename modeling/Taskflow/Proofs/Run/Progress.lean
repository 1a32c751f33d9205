import Taskflow.Proofs.Run.GraphPlan
set_option autoImplicit false

/-!
# Progress

A run that is not interrupted comes to rest only where it waits for its work: for an attempt that
goes on or for the end of a rest. In such a machine every failure has reached all those that depend
on it, no slot is idle while a task could use it, and where no work is under way everything is over.

## Main definitions

* `Phase.isInFlight`, `Action.isOutside` — what is left to the work, the clock and the interrupt.
* `Machine.Quiet` — nothing else can happen.
* `Machine.nodeOutcome?` — how the job of a task has ended.

## Main results

* `Machine.Quiet.cases` — where the jobs of a quiet machine stand.
* `Machine.Reached.blocked_of_quiet`, `Machine.Reached.started_of_quiet`,
  `Machine.Reached.ended_of_quiet` — the three parts, for jobs.
* `Machine.quiet_run` — the three parts, for the tasks of a graph.
* `Machine.interrupted_without_interrupt` — why the first part needs its second case.

## Design

That nothing else can happen is said of the function that carries out actions: none of them changes
the machine. A move always changes it, because it lowers the rank of its job; news from another job
change it, because the list of those that were not heard from gets shorter.
-/

namespace Taskflow

open TaskChange

/-- Whether a job that stands here has an attempt or a rest under way. -/
def Phase.isInFlight : Phase → Bool
  | .attempting .. | .playing .. | .resting .. => true
  | _ => false

/-- Whether an action is left to the work, the clock, or whoever interrupts the run. -/
def Action.isOutside (m : Machine) : Action → Bool
  | .move i _ | .poll i _ => (m.phaseOf? i).any (·.isInFlight)
  | .trigger | .advance _ | .tick => true
  | .arrive .. | .receive => false

namespace Coordinator

/-- When a closed queue has nothing to offer, the coordinator is done. -/
lemma isDone_of_receive_eq {c : Coordinator} {now : Nat} (h : c.receive now = c)
    (hc : c.isClosed = true) : c.isDone = true := by
  by_contra hopen
  by_cases hempty : c.pending.isEmpty = true
  · rw [receive, if_neg hopen, if_pos hempty, if_pos hc] at h
    exact hopen (h ▸ rfl)
  · have hpending : (c.receive now).pending = c.pending.extract batchSize c.pending.size := by
      have hbatch : c.takeBatch.pending = c.pending.extract batchSize c.pending.size := by
        simp only [takeBatch]
      rw [receive, if_neg hopen, if_neg hempty]
      generalize c.takeBatch = b at hbatch ⊢
      simp only
      split <;> exact hbatch
    have hsize := congrArg Array.size hpending
    rw [h, Array.size_extract, Nat.min_self] at hsize
    have hzero : c.pending.size = 0 := by
      simp only [batchSize] at hsize
      omega
    exact hempty (by simpa [Array.isEmpty] using hzero)

end Coordinator

namespace Machine

variable {p : Plan} {j : Job} {a : Phase} {i d : Nat} {m : Machine} {interval limit : Nat}
  {world : Machine}

/-- Nothing can happen but what is left to the work, the clock and the interrupt. -/
def Quiet (p : Plan) (m : Machine) : Prop := ∀ a : Action, a.isOutside m = false → m.step p a = m

/-! ### Jobs of a quiet machine -/

section Quiet

variable (hq : m.Quiet p)
include hq

/-- In a quiet machine a job whose work is not under way cannot move. -/
lemma Quiet.nextMove?_eq_none (hout : (m.phaseOf? i).any (·.isInFlight) = false)
    (choices : Choices) : m.nextMove? p i choices = none := by
  cases hv : m.nextMove? p i choices with
  | none => rfl
  | some v =>
    have hstep : (m.make p i v).closeIfEnded = m := by
      have h := hq (.move i choices) hout
      simp only [step, move, hv] at h
      exact h
    -- the move would lower the rank of the job, although the machine is the same afterwards
    have hrank := rank_lt_of_nextMove? hv
    have hsame : (m.make p i v).rankOf p i = m.rankOf p i := by
      rw [rankOf, rankOf, ← closeIfEnded_phaseOf? (m.make p i v), hstep]
    rw [hsame] at hrank
    exact (WellFoundedRelation.asymmetric hrank hrank).elim

/-- In a quiet machine nobody who waits has heard from anyone, or could hear from anyone. -/
lemma Quiet.waiting {unseen arrived : List Nat} (hm : m.interrupted = false)
    (hj : p.jobs[i]? = some j) (ha : m.phaseOf? i = some (.waiting unseen arrived)) :
    unseen ≠ [] ∧ arrived = [] ∧ ∀ d ∈ unseen, m.outcomeOf? d = none := by
  have hnone := hq.nextMove?_eq_none (i := i) (by rw [ha]; rfl) {}
  obtain ⟨s, hs, hphase⟩ := Option.map_eq_some_iff.1 ha
  simp only [nextMove?, hj, hs, moveOf?, hphase, whenWaiting, hm, Bool.false_eq_true,
    if_false] at hnone
  refine ⟨?_, ?_, fun d hd => ?_⟩
  · rintro rfl
    cases arrived with
    | nil => simp at hnone
    | cons d rest => simp only at hnone; split at hnone <;> cases hnone
  · cases arrived with
    | nil => rfl
    | cons d rest => simp only at hnone; split at hnone <;> cases hnone
  · cases ho : m.outcomeOf? d with
    | none => rfl
    | some o =>
      -- hearing from `d` would change the phase of the job
      have hstep := hq (.arrive i d) rfl
      simp only [step, arrive, ha, ho, if_pos hd] at hstep
      have hphase' := phaseOf?_setPhase m i i (.waiting (unseen.erase d) (arrived ++ [d]))
      rw [hstep, ha, if_pos rfl] at hphase'
      have := (Phase.waiting.inj (Option.some.inj hphase')).2
      simp at this

/-- **Where the jobs of a quiet machine stand**: their work is under way, they wait for others or
for a slot, or they have ended. -/
lemma Quiet.cases (hj : p.jobs[i]? = some j) (ha : m.phaseOf? i = some a) :
    a.isInFlight = true ∨ (∃ unseen arrived, a = .waiting unseen arrived) ∨ a = .queued ∨
      a.hasEnded = true := by
  have hnone : a.isInFlight = false → m.nextMove? p i {} = none := fun h =>
    hq.nextMove?_eq_none (by rw [ha]; exact h) {}
  obtain ⟨s, hs, rfl⟩ := Option.map_eq_some_iff.1 ha
  obtain ⟨phase, startedAt, captured⟩ := s
  simp only [nextMove?, hj, hs, moveOf?] at hnone
  cases phase with
  | waiting unseen arrived => exact .inr (.inl ⟨_, _, rfl⟩)
  | queued => exact .inr (.inr (.inl rfl))
  | attempting | playing | resting => exact .inl rfl
  | ended | crashed => exact .inr (.inr (.inr rfl))
  | _ => cases hnone rfl

end Quiet

/-! ### The three parts, for jobs -/

section Parts

variable (hslots : Slots.ofLimit? limit = .ok world.slots) (h : Reached p interval world m)
  (hq : m.Quiet p) (hm : m.interrupted = false) (hj : p.jobs[i]? = some j)
include hslots h hq hm hj

/-- A job that waits in a quiet machine waits for a job that has not ended. -/
lemma Reached.exists_open_of_waiting {unseen arrived : List Nat}
    (ha : m.phaseOf? i = some (.waiting unseen arrived)) :
    (∃ d ∈ j.awaited, m.outcomeOf? d = none) ∧
      ∀ d ∈ j.awaited, m.outcomeOf? d = none ∨ m.outcomeOf? d = some .succeeded := by
  obtain ⟨hne, rfl, hopen⟩ := hq.waiting hm hj ha
  obtain ⟨hall, hsub, -⟩ := h.gated hslots hj ha
  obtain ⟨d, hd⟩ := List.exists_mem_of_ne_nil _ hne
  refine ⟨⟨d, hsub d hd, hopen d hd⟩, fun d hd => ?_⟩
  rcases hall d hd with hd | hd | hd
  · exact .inl (hopen d hd)
  · cases hd
  · exact .inr hd

/-- **A failure reaches all those that depend on it**: a job one of whose dependencies did not
succeed is blocked and says by whom, unless it was told before by a dependency that it was
interrupted. -/
theorem Reached.blocked_of_quiet (hd : d ∈ j.awaited) (hfail : m.DidNotSucceed d) :
    (m.outcomeOf? i = some .blocked ∧ IsBlamed p j m (m.toldBy i)) ∨
      (m.outcomeOf? i = some .interrupted ∧
        ∃ d ∈ j.awaited, m.outcomeOf? d = some .interrupted) := by
  obtain ⟨a, ha⟩ := h.phaseOf?_of_job hj
  have hgated := h.gated hslots hj ha
  have hnot := hfail.not_allSucceeded hd
  have hwaiting : ∀ unseen arrived, a ≠ .waiting unseen arrived := by
    rintro unseen arrived rfl
    obtain ⟨-, hopen⟩ := Reached.exists_open_of_waiting hslots h hq hm hj ha
    rcases hopen d hd with ho | ho
    · rcases hfail with hf | hf <;> rw [ho] at hf <;> cases hf
    · exact hfail.ne_succeeded ho
  rcases hq.cases hj ha with hflight | ⟨unseen, arrived, rfl⟩ | rfl | hended
  · cases a with
    | attempting | playing | resting => exact absurd hgated hnot
    | _ => cases hflight
  · exact absurd rfl (hwaiting unseen arrived)
  · exact absurd hgated hnot
  · cases a with
    | ended outcome result =>
      have hout : m.outcomeOf? i = some outcome := by rw [outcomeOf?, ha]
      cases result with
      | some r => exact absurd hgated hnot
      | none =>
        rcases hgated with ⟨rfl, hblamed⟩ | ⟨rfl, hcut | hdep⟩
        · exact .inl ⟨hout, hblamed⟩
        · rw [hm] at hcut; cases hcut
        · exact .inr ⟨hout, hdep⟩
    | crashed message => exact absurd hgated hnot
    | _ => cases hended

/-- **No slot is idle while a task could use it**: if not all slots are held, a job all of whose
dependencies have succeeded has been started. -/
theorem Reached.started_of_quiet (hfree : m.holders.card < max limit 1)
    (hall : m.AllSucceeded j) : ∃ time, .started time ∈ m.toldBy i := by
  obtain ⟨a, ha⟩ := h.phaseOf?_of_job hj
  obtain ⟨cs, hcs, htold⟩ := h.told hslots hj ha
  have hgated := h.gated hslots hj ha
  have hb := h.balanced hslots
  have hunderway : Underway cs → ∃ time, .started time ∈ m.toldBy i := by
    rintro ⟨time, rest, rfl, -⟩
    exact ⟨time, hcs ▸ List.mem_append_right _ List.mem_cons_self⟩
  rcases hq.cases hj ha with hflight | ⟨unseen, arrived, rfl⟩ | rfl | hended
  · cases a with
    | attempting | playing | resting => exact hunderway htold
    | _ => cases hflight
  · obtain ⟨⟨d, hd, hopen⟩, -⟩ := Reached.exists_open_of_waiting hslots h hq hm hj ha
    rw [hall d hd] at hopen
    cases hopen
  · -- whoever stands in line finds all slots held
    have hmem : i ∈ m.slots.line := (hb.mem_line i).2 (claimOf_of_phaseOf? ha)
    have htotal : m.slots.free + m.holders.card = max limit 1 := hb.total_eq
    have hline := hb.line_eq_nil (by omega)
    rw [hline] at hmem
    cases hmem
  · cases a with
    | ended outcome result =>
      cases result with
      | none =>
        rcases hgated with ⟨-, d, hd, hfail, -⟩ | ⟨-, hcut | ⟨d, hd, hint⟩⟩
        · exact absurd hall (hfail.not_allSucceeded hd)
        · rw [hm] at hcut; cases hcut
        · rw [hall d hd] at hint; cases hint
      | some r =>
        rcases htold with ⟨-, -, hcut⟩ | ⟨-, body, time, hbody, rfl⟩
        · rw [hm] at hcut; cases hcut
        · obtain ⟨time', rest, rfl, -⟩ := hbody
          exact ⟨time', hcs ▸ List.mem_append_right _
            (List.mem_append_left _ List.mem_cons_self)⟩
    | crashed message => exact hunderway htold
    | _ => cases hended

end Parts

section Over

variable (h : Reached p interval world m) (hq : m.Quiet p)
  (hidle : ∀ i a, m.phaseOf? i = some a → a.isInFlight = false)
include h hq hidle

/-- Where no work is under way, nobody holds a slot. -/
lemma Reached.holders_eq_empty_of_quiet : m.holders = ∅ := by
  ext k
  refine ⟨fun hk => ?_, fun hk => absurd hk (Finset.notMem_empty k)⟩
  rw [mem_holders, claimOf] at hk
  split at hk
  next a ha =>
    obtain ⟨j, hj⟩ := h.job_of_phaseOf? ha
    have hidle := hidle k a ha
    rcases hq.cases hj ha with hflight | ⟨unseen, arrived, rfl⟩ | rfl | hended
    · rw [hidle] at hflight; cases hflight
    · cases hk
    · cases hk
    · cases a with
      | ended | crashed => cases hk
      | _ => cases hended
  next => cases hk

/-- **Where no work is under way, everything is over.**

**Proof sketch.** By induction on the place of a job: all those for which it could wait stand before
it and have ended. It does not stand in line, because then all slots would be held, and whoever
holds a slot has work under way. -/
theorem Reached.ended_of_quiet (hslots : Slots.ofLimit? limit = .ok world.slots)
    (hm : m.interrupted = false) (hp : p.Linked) : m.allEnded = true := by
  rw [allEnded_iff]
  intro i
  induction i using Nat.strong_induction_on with
  | _ i ih =>
    intro a ha
    obtain ⟨j, hj⟩ := h.job_of_phaseOf? ha
    rcases hq.cases hj ha with hflight | ⟨unseen, arrived, rfl⟩ | rfl | hended
    · rw [hidle i a ha] at hflight; cases hflight
    · obtain ⟨⟨d, hd, hopen⟩, -⟩ := Reached.exists_open_of_waiting hslots h hq hm hj ha
      obtain ⟨j', hj', -⟩ := (hp.mem_awaited hj d).1 hd
      obtain ⟨b, hb⟩ := h.phaseOf?_of_job hj'
      have hended := ih d (hp.earlier hj d hd) b hb
      rw [outcomeOf?, hb] at hopen
      cases b with
      | ended | crashed => cases hopen
      | _ => cases hended
    · have hb := h.balanced hslots
      have hmem : i ∈ m.slots.line := (hb.mem_line i).2 (claimOf_of_phaseOf? ha)
      have htotal : m.slots.free + m.holders.card = max limit 1 := hb.total_eq
      rw [Reached.holders_eq_empty_of_quiet h hq hidle, Finset.card_empty] at htotal
      rw [hb.line_eq_nil (by omega)] at hmem
      cases hmem
    · exact hended

omit h in
/-- When everything is over, the coordinator has seen everything. -/
lemma Quiet.isDone (hall : m.allEnded = true) : m.coordinator.isDone = true := by
  have hout : (m.phaseOf? 0).any (·.isInFlight) = false := by
    cases ha : m.phaseOf? 0 with
    | none => rfl
    | some a => exact hidle 0 a ha
  have hclosed : m.coordinator.isClosed = true := by
    have hstep := hq (.move 0 {}) hout
    simp only [step, move, nextMove?_of_allEnded hall, closeIfEnded, hall, if_true] at hstep
    exact hstep ▸ rfl
  have hreceive := hq .receive rfl
  exact Coordinator.isDone_of_receive_eq (congrArg coordinator hreceive) hclosed

end Over

/-! ### The tasks of a graph -/

section Graph

variable {g : TaskGraph} {launch : Launcher} {run : RunId} {t : TaskDefinition}

/-- How the job of task `id` of a graph has ended, if it has; one that broke down has failed. -/
def nodeOutcome? (g : TaskGraph) (m : Machine) (id : TaskId) : Option NodeOutcome :=
  (Plan.placeOf g.order id).bind m.outcomeOf?

/-- Task `id` of a graph has failed or is blocked. -/
def IsBad (g : TaskGraph) (m : Machine) (id : TaskId) : Prop :=
  m.nodeOutcome? g id = some .failed ∨ m.nodeOutcome? g id = some .blocked

/-- Task `t` of a graph has ended as blocked, and the event that says by which of its dependencies
is in the queue. -/
def HasBlocked (g : TaskGraph) (m : Machine) (t : TaskDefinition) : Prop :=
  m.nodeOutcome? g t.id = some .blocked ∧
    ∃ d ∈ t.dependencies, m.IsBad g d ∧ ⟨t.id, .blocked d⟩ ∈ m.events

/-- Task `t` of a graph has ended as interrupted, and so has one of its dependencies. -/
def HasPassedInterrupt (g : TaskGraph) (m : Machine) (t : TaskDefinition) : Prop :=
  m.nodeOutcome? g t.id = some .interrupted ∧
    ∃ d ∈ t.dependencies, m.nodeOutcome? g d = some .interrupted

/-- The outcome of a task is that of its job. -/
lemma nodeOutcome?_of_place (hg : g.WellFormed) {id : TaskId} (hi : g.order[i]? = some id) :
    m.nodeOutcome? g id = m.outcomeOf? i := by
  rw [nodeOutcome?, (Plan.placeOf_eq_some_iff hg.order_nodup).2 hi, Option.bind_some]

/-- What a job of a graph has emitted is in the queue. -/
lemma Reached.mem_events_of_toldBy (hp : p.Linked) (h : Reached p interval world m)
    (hj : p.jobs[i]? = some j) {c : TaskChange} (hc : c ∈ m.toldBy i) :
    ⟨j.task.id, c⟩ ∈ m.events := by
  rw [← h.changesOf_events hp hj, SystemState.changesOf, List.mem_map] at hc
  obtain ⟨e, he, rfl⟩ := hc
  obtain ⟨hmem, htask⟩ := List.mem_filter.1 he
  rw [← of_decide_eq_true htask]
  exact hmem

/-- The place of a dependency of a task, among the jobs for which the job of the task waits. -/
lemma exists_place_of_dependency (hg : g.WellFormed) {j : Job}
    (hj : (Plan.ofGraph g launch run).jobs[i]? = some j) {id : TaskId}
    (hid : id ∈ j.task.dependencies) : ∃ d ∈ j.awaited, g.order[d]? = some id := by
  have hp := Plan.linked_ofGraph hg launch run
  obtain ⟨d, j', hj', rfl⟩ := hp.declared hj id hid
  obtain ⟨u, -, hd, rfl⟩ := (Plan.getElem?_jobs_ofGraph_iff hg).1 hj'
  exact ⟨d, (hp.mem_awaited hj d).2 ⟨_, hj', hid⟩, hd⟩

/-- A job for which the job of a task waits is that of a dependency. -/
lemma exists_dependency_of_awaited (hg : g.WellFormed) {j : Job}
    (hj : (Plan.ofGraph g launch run).jobs[i]? = some j) (hd : d ∈ j.awaited) :
    ∃ id ∈ j.task.dependencies, g.order[d]? = some id ∧
      (Plan.ofGraph g launch run).idAt d j.task = id := by
  have hp := Plan.linked_ofGraph hg launch run
  obtain ⟨j', hj', hid⟩ := (hp.mem_awaited hj d).1 hd
  obtain ⟨u, -, hu, rfl⟩ := (Plan.getElem?_jobs_ofGraph_iff hg).1 hj'
  refine ⟨_, hid, hu, ?_⟩
  rw [Plan.idAt, hj']

/-- A failure reaches the task that depends on it, in terms of the graph. -/
lemma Reached.hasBlocked_or (hslots : Slots.ofLimit? limit = .ok world.slots) (hg : g.WellFormed)
    (h : Reached (Plan.ofGraph g launch run) interval world m)
    (hq : m.Quiet (Plan.ofGraph g launch run)) (hm : m.interrupted = false) (ht : t ∈ g.tasks)
    {id : TaskId} (hid : id ∈ t.dependencies) (hbad : m.IsBad g id) :
    m.HasBlocked g t ∨ m.HasPassedInterrupt g t := by
  have hp := Plan.linked_ofGraph hg launch run
  obtain ⟨i, hi, hj⟩ := Plan.exists_job_of_mem hg launch run ht
  obtain ⟨d, hd, hplace⟩ := exists_place_of_dependency hg hj hid
  rw [IsBad, nodeOutcome?_of_place hg hplace] at hbad
  rcases Reached.blocked_of_quiet hslots h hq hm hj hd hbad with
    ⟨hout, d', hd', hfail, htold⟩ | ⟨hout, d', hd', hint⟩
  · obtain ⟨id', hid', hplace', hname⟩ := exists_dependency_of_awaited hg hj hd'
    refine .inl ⟨(nodeOutcome?_of_place hg hi).trans hout, id', hid', ?_, ?_⟩
    · rwa [IsBad, nodeOutcome?_of_place hg hplace']
    · exact hname ▸ Reached.mem_events_of_toldBy hp h hj htold
  · obtain ⟨id', hid', hplace', -⟩ := exists_dependency_of_awaited hg hj hd'
    exact .inr ⟨(nodeOutcome?_of_place hg hi).trans hout, id', hid',
      (nodeOutcome?_of_place hg hplace').trans hint⟩

/-- **A quiet machine waits for nothing but its work.** For every graph that is built, every limit
and every sequence of actions that leads to a quiet machine whose run was not interrupted:
* a task with a dependency that has failed or is blocked has ended as blocked, with the event in the
  queue, or it has ended as interrupted after one of its dependencies has;
* the second case needs a computation that says it was interrupted although nobody interrupted it;
* if not all slots are held, every task all of whose dependencies have succeeded has been started;
* if no attempt and no rest is under way, all tasks have ended and the coordinator is done.

**Proof sketch.** In a quiet machine a job can neither move nor hear from another one
(`Quiet.cases`), so it has ended, stands in the line, is in flight, or waits for a job that has not
ended. A task with a bad dependency has heard of it, and has ended as blocked or interrupted. If not
all slots are held, nobody stands in the line, so a task whose dependencies have succeeded has
started. If nothing is in flight, no job can wait, by induction along the order. -/
theorem quiet_run {tasks : List TaskDefinition} (hg : TaskGraph.build tasks = .ok g)
    (hslots : Slots.ofLimit? limit = .ok world.slots) (launch : Launcher) (run : RunId)
    (interval : Nat) (actions : List Action) :
    let p := Plan.ofGraph g launch run
    let m := (start p interval world).run p actions
    m.Quiet p → m.interrupted = false →
      (∀ t ∈ g.tasks, ∀ d ∈ t.dependencies, m.IsBad g d →
        m.HasBlocked g t ∨ m.HasPassedInterrupt g t) ∧
      ((p.Ends fun e => e ≠ .fail .interrupted) →
        ∀ t ∈ g.tasks, ∀ d ∈ t.dependencies, m.IsBad g d → m.HasBlocked g t) ∧
      (m.holders.card < max limit 1 → ∀ t ∈ g.tasks,
        (∀ d ∈ t.dependencies, m.nodeOutcome? g d = some .succeeded) →
        ∃ time, ⟨t.id, .started time⟩ ∈ m.events) ∧
      ((∀ i a, m.phaseOf? i = some a → a.isInFlight = false) →
        (∀ t ∈ g.tasks, ∃ outcome, m.nodeOutcome? g t.id = some outcome) ∧
          m.coordinator.isDone = true) := by
  intro p m hq hm
  have hwf := TaskGraph.wellFormed_of_build hg
  have hp : p.Linked := Plan.linked_ofGraph hwf launch run
  have h : Reached p interval world m := reached_run actions
  refine ⟨fun t ht d hd hbad => h.hasBlocked_or hslots hwf hq hm ht hd hbad,
    fun hends t ht d hd hbad => ?_, fun hfree t ht hall => ?_, fun hidle => ?_⟩
  · refine (h.hasBlocked_or hslots hwf hq hm ht hd hbad).resolve_right fun ⟨hint, _⟩ => ?_
    obtain ⟨i, hi, -⟩ := Plan.exists_job_of_mem hwf launch run ht
    rw [nodeOutcome?_of_place hwf hi] at hint
    exact Reached.outcome_ne_interrupted hslots h hm hp hends i hint
  · obtain ⟨i, -, hj⟩ := Plan.exists_job_of_mem hwf launch run ht
    have hsucc : m.AllSucceeded (Plan.jobOf g run t) := by
      intro d hd
      obtain ⟨id, hid, hplace, -⟩ := exists_dependency_of_awaited hwf hj hd
      exact (nodeOutcome?_of_place hwf hplace).symm.trans (hall id hid)
    obtain ⟨time, htold⟩ := Reached.started_of_quiet hslots h hq hm hj hfree hsucc
    exact ⟨time, Reached.mem_events_of_toldBy hp h hj htold⟩
  · have hended := Reached.ended_of_quiet h hq hidle hslots hm hp
    refine ⟨fun t ht => ?_, hq.isDone hidle hended⟩
    obtain ⟨i, hi, hj⟩ := Plan.exists_job_of_mem hwf launch run ht
    obtain ⟨a, ha⟩ := h.phaseOf?_of_job hj
    rw [nodeOutcome?_of_place hwf hi, outcomeOf?, ha]
    have := allEnded_iff.1 hended i a ha
    cases a with
    | ended outcome result => exact ⟨outcome, rfl⟩
    | crashed message => exact ⟨.failed, rfl⟩
    | _ => cases this

end Graph

/-! ### Two runs that are over -/

/-- A machine whose run is over is quiet. -/
lemma quiet_of_isDone (hall : m.allEnded = true) (hclosed : m.coordinator.isClosed = true)
    (hdone : m.coordinator.isDone = true) : m.Quiet p := by
  have hclose : m.closeIfEnded = m := by
    have hsame : m.coordinator.close = m.coordinator := by
      generalize m.coordinator = c at hclosed
      cases c
      cases hclosed
      rfl
    rw [closeIfEnded, if_pos hall, hsame]
  intro a ha
  cases a with
  | move i choices => rw [step, move, nextMove?_of_allEnded hall]; exact hclose
  | poll i choices => rw [step, poll_of_none (nextMove?_of_allEnded hall)]; exact hclose
  | arrive i d =>
    simp only [step, arrive]
    split
    next hi hd => exact absurd (allEnded_iff.1 hall _ _ hi) (by simp [Phase.hasEnded])
    next => rfl
  | receive => rw [step, Coordinator.receive, if_pos hdone]
  | trigger | advance | tick => cases ha

/-- A task `t` that depends on `a`, which fails with an error at once, and on `b`, which fails by
itself a little later. -/
def forkTasks (e : TaskError) : List TaskDefinition :=
  [.ofComputation ⟨"a"⟩ fun _ => .finish (.fail e),
    .ofComputation ⟨"b"⟩ fun _ => .sleep (.ofMillis 50) fun _ => .finish (.fail (.failed "boom")),
    { TaskDefinition.ofComputation ⟨"t"⟩ fun _ => .finish (.ok .null) with
      dependencies := [⟨"a"⟩, ⟨"b"⟩], dependencies_nodup := by decide }]

/-- The graph of the three tasks. -/
def forkGraph (e : TaskError) : TaskGraph := ⟨forkTasks e, [⟨"a"⟩, ⟨"b"⟩, ⟨"t"⟩]⟩

/-- The jobs of the three tasks. -/
def forkPlan (e : TaskError) : Plan := .ofGraph (forkGraph e) (fun _ _ => .error "") default

/-- Task `t` hears from `a`, and settles, before `b` fails. -/
def forkActions : List Action :=
  List.replicate 12 (.move 0 {}) ++ .arrive 2 0 :: List.replicate 3 (.move 2 {}) ++
    List.replicate 7 (.move 1 {}) ++ .advance 50 :: List.replicate 7 (.move 1 {}) ++
    [.receive, .receive]

/-- The machine after these actions, with two slots. -/
def forkRun (e : TaskError) : Machine :=
  (start (forkPlan e) 1 (Machine.world ⟨2, []⟩)).run (forkPlan e) forkActions

/-- **A task that says it was interrupted is believed**, although nobody interrupted the run: the
task `t` that hears from it first is not blocked when its other dependency fails. -/
theorem interrupted_without_interrupt :
    TaskGraph.build (forkTasks .interrupted) = .ok (forkGraph .interrupted) ∧
      (forkRun .interrupted).Quiet (forkPlan .interrupted) ∧
      (forkRun .interrupted).interrupted = false ∧
      ∃ t ∈ (forkGraph .interrupted).tasks, ∃ d ∈ t.dependencies,
        (forkRun .interrupted).IsBad (forkGraph .interrupted) d ∧
          ¬ (forkRun .interrupted).HasBlocked (forkGraph .interrupted) t := by
  refine ⟨rfl, quiet_of_isDone ?_ ?_ ?_, ?_, (forkTasks .interrupted)[2],
    by simp [forkGraph, forkTasks], ⟨"b"⟩, by simp [forkTasks], .inl ?_, fun h => ?_⟩
  · decide +kernel
  · decide +kernel
  · decide +kernel
  · decide +kernel
  · decide +kernel
  · have hout : (forkRun .interrupted).nodeOutcome? (forkGraph .interrupted) ⟨"t"⟩ =
        some .interrupted := by decide +kernel
    exact absurd (hout.symm.trans h.1) (by simp)

/-- No attempt ends as if it was interrupted. -/
lemma forkPlan_ends : (forkPlan (.failed "boom")).Ends fun e => e ≠ .fail .interrupted := by
  intro i j hj behaviour hwork n
  match i with
  | 0 => cases hj; cases hwork; exact .finish _ (by simp)
  | 1 => cases hj; cases hwork; exact .sleep _ _ fun _ => .finish _ (by simp)
  | 2 => cases hj; cases hwork; exact .finish _ (by simp)
  | i + 3 => cases hj

/-- Where both dependencies fail by themselves, `t` is blocked by the one that fails first. -/
theorem blocked_by_first_failure :
    (forkRun (.failed "boom")).HasBlocked (forkGraph (.failed "boom"))
      (forkTasks (.failed "boom"))[2] := by
  have hbuild : TaskGraph.build (forkTasks (.failed "boom")) = .ok (forkGraph (.failed "boom")) :=
    rfl
  have hslots : Slots.ofLimit? 2 = .ok (Machine.world ⟨2, []⟩).slots := rfl
  have hquiet : (forkRun (.failed "boom")).Quiet (forkPlan (.failed "boom")) :=
    quiet_of_isDone (by decide +kernel) (by decide +kernel) (by decide +kernel)
  have hrun : (forkRun (.failed "boom")).interrupted = false := by decide +kernel
  have hbad : (forkRun (.failed "boom")).IsBad (forkGraph (.failed "boom")) ⟨"a"⟩ :=
    .inl (by decide +kernel)
  exact (quiet_run hbuild hslots (fun _ _ => .error "") default 1 forkActions hquiet hrun).2.1
    forkPlan_ends _ (by simp [forkGraph, forkTasks]) ⟨"a"⟩ (by simp [forkTasks]) hbad

end Machine

end Taskflow
