import Taskflow.Proofs.Run.Ceiling
import Taskflow.Proofs.Run.GraphPlan
import Taskflow.Proofs.Run.LastAttempt
import Taskflow.Proofs.Run.Polling
set_option autoImplicit false

/-!
# Interrupted runs

Whenever a run is interrupted, no task starts or is blocked any more. Those that have started come
to their end, those that have not stay as they are, and after two polls of every job the run is
over.

## Main definitions

* `Machine.Triggered` — where a run can stand when it has been interrupted.
* `Machine.Remains` — what a job can still tell then.
* `Machine.CompletesOnce` — how a task comes to its end that has started.

## Main results

* `Machine.Poised.steps` — no task starts or is blocked after the interrupt.
* `Machine.interrupt_settles` — how a run of a graph goes on, as a whole and task by task.

## Design

A poll is not interrupted by other polls, but its own work may interrupt the run. So there are two
kinds of moments: between two polls, and within a poll right after the move that interrupts the run.
In both, no job is about to start or to be blocked, and in an interrupted run no job comes to be.
-/

namespace Taskflow

open Relation TaskChange

namespace Machine

variable {p : Plan} {j : Job} {a : Phase} {i k : Nat} {choices : Choices} {m m₀ m' : Machine}
  {v : Move} {cs more : List TaskChange} {interval limit : Nat} {world : Machine}

/-! ### Steps of an interrupted run -/

/-- Whose attempts are over does not start and is not blocked. -/
lemma not_isCommitted_concluded (t : TaskDefinition) (attempts : UInt32) (outcome : TaskOutcome) :
    (concluded t attempts outcome).isCommitted = false := by
  unfold concluded
  split <;> rfl

/-- In an interrupted run, who is not about to start or to be blocked does not come to be. -/
lemma Moves.not_isCommitted {s : JobState} (h : Moves p j s m a v) (hm : m.interrupted = true)
    (ha : a.isCommitted = false) :
    v.phase.isCommitted = false ∧ ∀ c, v.deed.told = some c → c.isFirst = false := by
  have hnever : ¬ m.interrupted = false := by simp [hm]
  cases h with
  | block | take | join | start => cases ha
  | proceed h | ask h | accept h => exact absurd h hnever
  | hearSuccess _ _ _ h | hearFailure _ _ _ h | hearInterrupt _ _ _ h => exact absurd h hnever
  | succeed | exhaust | stop => exact ⟨not_isCommitted_concluded _ _ _, fun _ hc => nomatch hc⟩
  | emit | retry | complete =>
    refine ⟨rfl, fun c hc => ?_⟩
    cases hc
    rfl
  | keep =>
    refine ⟨rfl, fun c hc => ?_⟩
    rw [told_keepReport] at hc
    cases hc
  | _ => exact ⟨rfl, fun _ hc => nomatch hc⟩

/-- In an interrupted run no step leads to a start, if nobody is about to start, and none tells
one. -/
lemma Poised.of_step (h : m.Poised) (hm : m.interrupted = true) (hs : Step p m m') :
    m'.Poised ∧ ∃ later, m'.events = m.events ++ later ∧ ∀ e ∈ later, e.change.isFirst = false := by
  have hnone : ∃ later, m.events = m.events ++ later ∧ ∀ e ∈ later, e.change.isFirst = false :=
    ⟨[], (List.append_nil _).symm, fun e he => nomatch he⟩
  cases hs with
  | @move i choices v hv =>
    obtain ⟨j, s, hj, hs, hmove⟩ := moves_of_nextMove? hv
    obtain ⟨hphase, htold⟩ := hmove.not_isCommitted hm (h i _ hs)
    refine ⟨fun k b hb => ?_, _, events_make hj, fun e he => ?_⟩
    · by_cases hk : i = k
      · subst hk
        obtain rfl : v.phase = b := Option.some.inj ((phaseOf?_make_self hv).symm.trans hb)
        exact hphase
      · rcases phaseOf?_make_cases hv hk hb with rfl | hb
        · rfl
        · exact h k b hb
    · obtain ⟨c, hc, rfl⟩ := Option.map_eq_some_iff.1 (Option.mem_toList.1 he)
      exact htold c hc
  | arrive =>
    refine ⟨fun k b hb => ?_, hnone⟩
    rw [phaseOf?_setPhase] at hb
    split at hb
    · obtain ⟨a, -, rfl⟩ := Option.map_eq_some_iff.1 hb
      rfl
    · exact h k b hb
  | ambient => exact ⟨h, hnone⟩

/-- In an interrupted run nobody comes to be about to start, and no start is told. -/
lemma Poised.of_steps (h : m.Poised) (hm : m.interrupted = true)
    (hs : ReflTransGen (Step p) m m') : m'.Poised ∧ ∃ later, m'.events = m.events ++ later ∧
      ∀ e ∈ later, e.change.isFirst = false := by
  induction hs with
  | refl => exact ⟨h, [], (List.append_nil _).symm, fun e he => nomatch he⟩
  | tail hs hstep ih =>
    obtain ⟨hpoised, later, hlater, hfirst⟩ := ih
    obtain ⟨hpoised', next, hnext, hfirst'⟩ :=
      hpoised.of_step (interrupted_of_steps hs hm) hstep
    refine ⟨hpoised', later ++ next, by rw [hnext, hlater, List.append_assoc], fun e he => ?_⟩
    rcases List.mem_append.1 he with he | he
    · exact hfirst e he
    · exact hfirst' e he

/-- **After an interrupt no task starts or is blocked.** -/
theorem Poised.steps (h : m.Poised) (hm : m.interrupted = true)
    (hs : ReflTransGen (Step p) m m') : ∃ later, m'.events = m.events ++ later ∧
      ∀ e ∈ later, e.change.isFirst = false :=
  (h.of_steps hm hs).2

/-! ### The moment of the interrupt -/

/-- Where a run can stand when it has been interrupted: between two polls, or within a poll of a
job whose work has just interrupted it. -/
inductive Triggered (p : Plan) (interval : Nat) (world : Machine) : Machine → Prop
  | between {actions : List Action} (hwhole : ∀ x ∈ actions, x.isWhole = true)
    (h : ((start p interval world).run p actions).interrupted = true) :
    Triggered p interval world ((start p interval world).run p actions)
  | within {actions : List Action} {i : Nat} {choices : Choices} {m : Machine}
    (hwhole : ∀ x ∈ actions, x.isWhole = true)
    (hpoll : Polls p i choices ((start p interval world).run p actions) m)
    (hm : m.interrupted = false) (h : (m.move p i choices).interrupted = true) :
    Triggered p interval world (m.move p i choices)

/-- A move that interrupts the run leaves its job in the middle of an attempt. -/
lemma playing_of_interrupted (hm : m.interrupted = false)
    (h : (m.move p i choices).interrupted = true) : ∃ v n script,
      m.nextMove? p i choices = some v ∧ v.phase = .playing n script ∧
        m.move p i choices = m.make p i v := by
  cases hv : m.nextMove? p i choices with
  | none =>
    rw [move, hv, hm] at h
    cases h
  | some v =>
    have hmake : m.move p i choices = m.make p i v := by rw [move, hv]
    obtain ⟨j, s, hj, -, hmove⟩ := moves_of_nextMove? hv
    rw [hmake, make_interrupted hj] at h
    refine ⟨v, ?_⟩
    generalize s.phase = a at hmove
    cases hmove with
    | trigger n next => exact ⟨n, next, rfl, rfl, hmake⟩
    | keep attempts outcome =>
      rcases keepReport_cases j s outcome m with hk | ⟨files, hk⟩ | ⟨files, record, hk⟩ <;>
        simp [hk, hm] at h
    | _ => simp [hm] at h

namespace Triggered

variable (h : Triggered p interval world m)
include h

/-- Where a run can stand when it has been interrupted, it is a reached machine. -/
lemma reached : Reached p interval world m := by
  cases h with
  | between => exact reached_run _
  | within _ hpoll =>
    exact ((steps_run _).trans hpoll.steps).trans (steps_move _ _)

/-- Where a run can stand when it has been interrupted, it is interrupted. -/
lemma interrupted : m.interrupted = true := by
  cases h with
  | between _ h => exact h
  | within _ _ _ h => exact h

/-- When a run is interrupted, no job stands where a poll does not stop, other than one whose work
has just interrupted the run. -/
lemma playing_of_isPassing (ha : m.phaseOf? k = some a) (hpassing : a.isPassing = true) :
    ∃ n script, a = .playing n script := by
  cases h with
  | between hwhole => exact absurd hpassing (by simp [parked_run _ hwhole k a ha])
  | @within actions i _ m hwhole hpoll hm h =>
    obtain ⟨v, n, script, hv, hphase, hmove⟩ := playing_of_interrupted hm h
    rw [hmove] at ha
    by_cases hk : i = k
    · subst hk
      obtain rfl : v.phase = a := Option.some.inj ((phaseOf?_make_self hv).symm.trans ha)
      exact ⟨n, script, hphase⟩
    · have hparked := (hpoll.parkedBut ((parked_run _ hwhole).but _)).make hv
      exact absurd hpassing (by simp [hparked k a hk ha])

/-- When a run is interrupted, no job is about to start or to be blocked. -/
lemma poised : m.Poised := by
  intro k a ha
  rw [← Bool.not_eq_true]
  intro hcommitted
  obtain ⟨n, script, rfl⟩ := h.playing_of_isPassing ha (Phase.isPassing_of_isCommitted hcommitted)
  cases hcommitted

/-- Where a run can stand when it is interrupted, its queue is closed if all jobs have ended. -/
lemma closesQueue : m.ClosesQueue := by
  cases h with
  | between => exact closesQueue_start.run _
  | within _ _ hm h =>
    obtain ⟨v, n, script, hv, hphase, hmove⟩ := playing_of_interrupted hm h
    intro hall
    rw [hmove] at hall
    have hended := allEnded_iff.1 hall _ _ (phaseOf?_make_self hv)
    rw [hphase] at hended
    cases hended

end Triggered

/-! ### What jobs can still tell -/

/-- What a job that has told `cs` since its registration tells later, if it neither starts nor is
blocked then. -/
inductive Remains : List TaskChange → List TaskChange → Prop
  | silent : Remains [] []
  | blocked (d : TaskId) : Remains [.blocked d] []
  | underway {cs : List TaskChange} (h : Underway cs) (more : List TaskChange) : Remains cs more
  | completed {cs : List TaskChange} {outcome : TaskOutcome} (h : Completed outcome cs) :
    Remains cs []

/-- What follows a part of a life without a start or a block is one of four things. -/
lemma remains_of_lived (h : Lived cs) (hmore : Lived (cs ++ more))
    (hfirst : ∀ c ∈ more, c.isFirst = false) : Remains cs more := by
  rcases h with rfl | ⟨d, rfl⟩ | h | ⟨outcome, h⟩
  · -- every life that says anything begins with a start or a block
    have hsilent : ∀ {c : TaskChange} {rest : List TaskChange}, more = c :: rest →
        c.isFirst = true → False := by
      rintro c rest rfl hc
      rw [hfirst c List.mem_cons_self] at hc
      cases hc
    rcases hmore with h | ⟨d, h⟩ | ⟨time, rest, h, -⟩ | ⟨outcome, body, time, ⟨t, rest, rfl, -⟩, h⟩
    · obtain rfl : more = [] := h
      exact .silent
    · exact (hsilent h rfl).elim
    · exact (hsilent h rfl).elim
    · exact (hsilent h rfl).elim
  · have hmore : Lived ([] ++ .blocked d :: more) := hmore
    obtain rfl : more = [] := hmore.eq_nil_of_isLast rfl
    exact .blocked d
  · exact .underway h more
  · obtain rfl : more = [] := hmore.eq_nil_of_completed h
    exact .completed h

section Later

variable (hslots : Slots.ofLimit? limit = .ok world.slots) (h₀ : Reached p interval world m₀)
  (h : Reached p interval world m)
include hslots h₀ h

/-- What a job has told before an interrupt and after it, and what is known of its task. -/
lemma Reached.exists_remains (hp : p.Linked) {later : List TaskEvent}
    (hevents : m.events = m₀.events ++ later) (hfirst : ∀ e ∈ later, e.change.isFirst = false)
    (hj : p.jobs[k]? = some j) (ha : m.phaseOf? k = some a) : ∃ cs more, Remains cs more ∧
      SystemState.changesOf j.task.id m₀.events = j.registration ++ cs ∧
      SystemState.changesOf j.task.id m.events = j.registration ++ (cs ++ more) ∧
      (SystemState.empty.fold m₀.events).get? j.task.id =
        some (cs.foldl TaskState.apply (.fresh j.task.id j.task.name)) ∧
      (SystemState.empty.fold m.events).get? j.task.id =
        some ((cs ++ more).foldl TaskState.apply (.fresh j.task.id j.task.name)) ∧
      a.Told m.interrupted (cs ++ more) := by
  obtain ⟨a₀, ha₀⟩ := h₀.phaseOf?_of_job hj
  obtain ⟨cs, htold₀, hcs, hstate₀⟩ := h₀.get?_fold_events hslots hp hj ha₀
  obtain ⟨all, htold, hall, hstate⟩ := h.get?_fold_events hslots hp hj ha
  rw [← h₀.changesOf_events hp hj] at hcs
  rw [← h.changesOf_events hp hj] at hall
  obtain rfl : cs ++ SystemState.changesOf j.task.id later = all := by
    rw [hevents, SystemState.changesOf_append, hcs, List.append_assoc] at hall
    exact List.append_cancel_left hall
  refine ⟨cs, _, remains_of_lived htold₀.lived htold.lived fun c hc => ?_, hcs, hall, hstate₀,
    hstate, htold⟩
  obtain ⟨e, he, rfl⟩ := List.mem_map.1 hc
  exact hfirst e (List.mem_filter.1 he).1

end Later

/-! ### Jobs that have ended -/

/-- A job that has told nothing and has ended was interrupted. -/
lemma settled_nil {interrupted : Bool} {outcome : NodeOutcome} {result : Option TaskResult}
    (h : Settled interrupted [] outcome result) : outcome = .interrupted := by
  cases result with
  | none =>
    rcases h with ⟨-, d, h⟩ | ⟨h, -⟩
    · cases h
    · exact h
  | some r =>
    rcases h with ⟨h, -⟩ | ⟨-, body, time, -, h⟩
    · exact h
    · simp at h

/-- A job that has started and has ended has a result, and has told its end. -/
lemma settled_underway {interrupted : Bool} {outcome : NodeOutcome} {result : Option TaskResult}
    (hcs : Underway cs) (h : Settled interrupted (cs ++ more) outcome result) :
    ∃ r, result = some r ∧ Completed r.outcome (cs ++ more) := by
  obtain ⟨time, rest, rfl, -⟩ := hcs
  cases result with
  | none =>
    rcases h with ⟨-, d, h⟩ | ⟨-, h⟩
    · cases h
    · cases h
  | some r =>
    rcases h with ⟨-, h, -⟩ | ⟨-, h⟩
    · cases h
    · exact ⟨r, rfl, h⟩

/-- Where no computation breaks down, every job has an outcome when all have ended. -/
lemma Reached.exists_ended (hslots : Slots.ofLimit? limit = .ok world.slots) (hp : p.NeverPanics)
    (h : Reached p interval world m) (hall : m.allEnded = true) (ha : m.phaseOf? k = some a) :
    ∃ outcome result, a = .ended outcome result := by
  have hended := allEnded_iff.1 hall k a ha
  cases a with
  | ended outcome result => exact ⟨outcome, result, rfl⟩
  | crashed message => exact absurd rfl (h.not_crashed hslots hp ha message).2
  | _ => cases hended

/-- When all jobs have ended, no task is shown as running. -/
lemma Reached.count_running_of_allEnded (hslots : Slots.ofLimit? limit = .ok world.slots)
    (hp : p.NeverPanics) (h : Reached p interval world m) (hall : m.allEnded = true) :
    (SystemState.empty.fold m.events).count .running = 0 := by
  have hqueue : m.queueOf (fun _ => true) = m.events := by
    rw [queueOf, List.filter_eq_self.2 fun _ _ => rfl]
    rfl
  have hle : (SystemState.empty.fold m.events).count .running ≤ ([] : List TaskId).length := by
    refine (SystemState.keyed_empty.fold _).count_le fun id s hs hrunning => ?_
    rw [← hqueue] at hs
    obtain ⟨k, j, cs, -, hj, -, hcs, hunder⟩ := h.exists_of_running hslots hs hrunning
    obtain ⟨a, ha⟩ := h.phaseOf?_of_job hj
    obtain ⟨outcome, result, rfl⟩ := h.exists_ended hslots hp hall ha
    obtain ⟨cs', hcs', htold⟩ := h.told hslots hj ha
    obtain rfl : cs = cs' := List.append_cancel_left (hcs.symm.trans hcs')
    have htold : Settled m.interrupted (cs ++ []) outcome result :=
      (List.append_nil cs).symm ▸ htold
    obtain ⟨r, -, hcompleted⟩ := settled_underway hunder htold
    rw [List.append_nil] at hcompleted
    exact absurd hcompleted.hasCompleted hunder.not_completed
  exact Nat.eq_zero_of_le_zero hle

/-! ### Runs of graphs -/

/-- From machine `m₀` to machine `m`, task `id`, whose job is `i`, comes to its end once, after more
lines and retries. Its outcome is that of its last attempt: if on the way to `m` the work of this
attempt came to an ending by itself, it is the outcome of that ending, and if not, the task was
interrupted. -/
def CompletesOnce (p : Plan) (interval : Nat) (world m₀ m : Machine) (i : Nat) (id : TaskId) :
    Prop :=
  ∃ mid time result n,
    SystemState.changesOf id m.events =
      SystemState.changesOf id m₀.events ++ mid ++ [.completed time result.outcome] ∧
    (∀ c ∈ mid, c.isProgress = true) ∧
    (id, result) ∈ (GraphResult.ofMachine p m).results ∧
    result.attempts = n + 1 ∧
    ∀ ms, Trail p interval world (m :: ms) →
      (∀ e, HasFinished (m :: ms) i n e → e.outcome? = some result.outcome) ∧
      ((¬ ∃ e, HasFinished (m :: ms) i n e) → result.outcome = .failure "interrupted" none true)

/-- A job that was under way at the interrupt comes to its end once. -/
lemma Reached.completesOnce (hslots : Slots.ofLimit? limit = .ok world.slots)
    (h : Reached p interval world m) (hj : p.jobs[i]? = some j) {outcome : NodeOutcome}
    {result : Option TaskResult} (ha : m.phaseOf? i = some (.ended outcome result))
    (hcs : Underway cs) (htold : Settled m.interrupted (cs ++ more) outcome result)
    (hchanges₀ : SystemState.changesOf j.task.id m₀.events = j.registration ++ cs)
    (hchanges : SystemState.changesOf j.task.id m.events = j.registration ++ (cs ++ more)) :
    CompletesOnce p interval world m₀ m i j.task.id := by
  obtain ⟨r, rfl, hcompleted⟩ := settled_underway hcs htold
  obtain ⟨mid, time, rfl, hmid⟩ := hcompleted.exists_of_underway hcs
  obtain ⟨ms, htrail⟩ := h.exists_trail
  obtain ⟨n, hn, -, -⟩ := htrail.outcome_of_lastAttempt hslots ha
  refine ⟨mid, time, r, n, ?_, hmid, GraphResult.mem_results_of_ended hj ha, hn,
    fun ms hms => ?_⟩
  · rw [hchanges, hchanges₀, List.append_assoc, List.append_assoc]
  · obtain ⟨n', hn', hlast⟩ := hms.outcome_of_lastAttempt hslots ha
    obtain rfl : n = n' := (UInt32.add_left_inj 1).1 (hn.symm.trans hn')
    exact hlast

/-- How a job ends that has not come to its end at the interrupt: if it was under way then, it comes
to its end once, and if it had told nothing, it tells nothing and was interrupted. -/
lemma Reached.ended_after (hslots : Slots.ofLimit? limit = .ok world.slots)
    (h₀ : Reached p interval world m₀) (h : Reached p interval world m) (hp : p.Linked)
    {later : List TaskEvent} (hevents : m.events = m₀.events ++ later)
    (hfirst : ∀ e ∈ later, e.change.isFirst = false) (hj : p.jobs[i]? = some j)
    {outcome : NodeOutcome} {result : Option TaskResult}
    (ha : m.phaseOf? i = some (.ended outcome result)) :
    ∃ u, (SystemState.empty.fold m₀.events).get? j.task.id = some u ∧
      (HasStarted (SystemState.changesOf j.task.id m₀.events) →
        ¬ HasCompleted (SystemState.changesOf j.task.id m₀.events) →
        CompletesOnce p interval world m₀ m i j.task.id) ∧
      (¬ HasStarted (SystemState.changesOf j.task.id m₀.events) → u.isBlocked = false →
        (SystemState.empty.fold m.events).get? j.task.id =
          some (.fresh j.task.id j.task.name) ∧ outcome = .interrupted) := by
  obtain ⟨cs, more, hremains, hchanges₀, hchanges, hstate₀, hstate, htold⟩ :=
    Reached.exists_remains hslots h₀ h hp hevents hfirst hj ha
  refine ⟨_, hstate₀, fun hstarted hopen => ?_, fun hidle hfree => ?_⟩
  · rw [hchanges₀, hasStarted_registration] at hstarted
    rw [hchanges₀, hasCompleted_registration] at hopen
    cases hremains with
    | underway hcs => exact h.completesOnce hslots hj ha hcs htold hchanges₀ hchanges
    | completed hcs => exact absurd hcs.hasCompleted hopen
    | silent | blocked =>
      obtain ⟨time, hmem⟩ := hstarted
      simp at hmem
  · rw [hchanges₀, hasStarted_registration] at hidle
    cases hremains with
    | silent => exact ⟨hstate, settled_nil htold⟩
    | blocked d => cases hfree
    | underway hcs => exact absurd hcs.hasStarted hidle
    | completed hcs => exact absurd hcs.hasStarted hidle

/-- **Interrupted runs settle.** For every graph that is built, every limit, computations that do
not break down, every moment `m₀` at which the run has been interrupted, and whatever happens
after it up to machine `m`:
* nothing that is emitted after `m₀` is a start or a block;
* a task that has come to its end or is blocked at `m₀` keeps its state;
* a job that has been polled since `m₀` has its attempts behind it;
* when every job has been polled twice, all have ended, and the coordinator is done once it has
  served its queue;
* when all jobs have ended, the result says that the run was interrupted, no task is running, and
  every task has one outcome. A task that has started at `m₀` and not come to its end then does so
  once; and every task that had neither started nor was blocked is as it was registered, and its
  outcome is that it was interrupted.

The two polls are those in which a job looks at the interrupt and in which it comes to its end. Not
counted are polls in which it only waits for what is not its own: for the end of the process that it
has killed, and for the disk to which it writes its report. In a machine both are done within a
move.

**Proof sketch.** At `m₀` no job is about to start or to be blocked, and afterwards none comes to be
(`Poised.steps`). So what is emitted after `m₀` can only finish what was under way, and all other
tasks keep their states (`Reached.exists_remains`). The first poll brings a job past its attempts,
the second one to its end (`Reached.isClosing_of_polled`, `Reached.allEnded_of_polled`); then the
queue is closed, and the coordinator needs finitely many turns to serve it. The outcome of a job is
read off from what it has told. -/
theorem interrupt_settles {g : TaskGraph} {tasks : List TaskDefinition}
    (hg : TaskGraph.build tasks = .ok g) (hslots : Slots.ofLimit? limit = .ok world.slots)
    (launch : Launcher) (run : RunId) (hpanic : (Plan.ofGraph g launch run).NeverPanics)
    (interval : Nat) (h₀ : Triggered (Plan.ofGraph g launch run) interval world m₀)
    (after : List Action) :
    let p := Plan.ofGraph g launch run
    let m := m₀.run p after
    let s₀ := SystemState.empty.fold m₀.events
    let s := SystemState.empty.fold m.events
    let r := GraphResult.ofMachine p m
    (∃ later, m.events = m₀.events ++ later ∧ ∀ e ∈ later, e.change.isFirst = false) ∧
    (∀ t ∈ g.tasks, ∀ u, s₀.get? t.id = some u → u.status.isTerminal = true ∨ u.isBlocked = true →
      s.get? t.id = some u) ∧
    (∀ i a, 0 < after.countP (·.isPollOf i) → m.phaseOf? i = some a → a.isClosing = true) ∧
    ((∀ i < p.jobs.size, 2 ≤ after.countP (·.isPollOf i)) → m.allEnded = true ∧
      ∃ n, (m.run p (List.replicate n .receive)).coordinator.isDone = true) ∧
    (m.allEnded = true → r.interrupted = true ∧ s.count .running = 0 ∧
      (m.coordinator.isDone = true → r.state = s) ∧
      ∀ t ∈ g.tasks, ∃ i u outcome, g.order[i]? = some t.id ∧ s₀.get? t.id = some u ∧
        (∀ o, (t.id, o) ∈ r.outcomes ↔ o = outcome) ∧
        (HasStarted (SystemState.changesOf t.id m₀.events) →
          ¬ HasCompleted (SystemState.changesOf t.id m₀.events) →
          CompletesOnce p interval world m₀ m i t.id) ∧
        (¬ HasStarted (SystemState.changesOf t.id m₀.events) → u.isBlocked = false →
          s.get? t.id = some (.fresh t.id t.name) ∧ outcome = .interrupted)) := by
  intro p m s₀ s r
  have hwf := TaskGraph.wellFormed_of_build hg
  have hp : p.Linked := Plan.linked_ofGraph hwf launch run
  have hr₀ := h₀.reached
  have hr : Reached p interval world m := hr₀.trans (steps_run after)
  have hm : m.interrupted = true := interrupted_of_steps (steps_run after) h₀.interrupted
  obtain ⟨later, hevents, hfirst⟩ := h₀.poised.steps h₀.interrupted (steps_run after)
  refine ⟨⟨later, hevents, hfirst⟩, fun t ht u hu hlast => ?_,
    fun i a hpolled => hr₀.isClosing_of_polled hslots h₀.interrupted hpolled, fun hpolled => ?_,
    fun hall => ⟨hm, hr.count_running_of_allEnded hslots hpanic hall, fun hdone =>
      hr.tracks.state_eq_of_isDone hdone, fun t ht => ?_⟩⟩
  · obtain ⟨i, -, hj⟩ := Plan.exists_job_of_mem hwf launch run ht
    obtain ⟨a, ha⟩ := hr.phaseOf?_of_job hj
    obtain ⟨cs, more, hremains, -, -, hstate₀, hstate, -⟩ :=
      Reached.exists_remains hslots hr₀ hr hp hevents hfirst hj ha
    obtain rfl := Option.some.inj (hstate₀.symm.trans hu)
    cases hremains with
    | silent | blocked => exact hstate
    | completed => rw [List.append_nil] at hstate; exact hstate
    | underway h =>
      rw [h.status_eq, h.isBlocked_eq] at hlast
      simp [TaskStatus.isTerminal] at hlast
  · have hended := hr₀.allEnded_of_polled hslots h₀.interrupted hpolled
    exact ⟨hended, exists_isDone_run ((h₀.closesQueue.run after) hended)⟩
  · obtain ⟨i, hi, hj⟩ := Plan.exists_job_of_mem hwf launch run ht
    obtain ⟨a, ha⟩ := hr.phaseOf?_of_job hj
    obtain ⟨outcome, result, rfl⟩ := hr.exists_ended hslots hpanic hall ha
    obtain ⟨u, hu, hafter⟩ := Reached.ended_after hslots hr₀ hr hp hevents hfirst hj ha
    refine ⟨i, u, outcome, hi, hu, fun o => ?_, hafter⟩
    refine (GraphResult.mem_outcomes_iff hp hj).trans ⟨fun ⟨result', ha'⟩ => ?_, ?_⟩
    · exact (Phase.ended.inj (Option.some.inj (ha'.symm.trans ha))).1
    · rintro rfl
      exact ⟨result, ha⟩

/-- Task `a` interrupts the run and sleeps, and `b` depends on it. -/
def alarmTasks : List TaskDefinition :=
  [.ofComputation ⟨"a"⟩ fun _ =>
      .trigger (.sleep (.ofMillis 1000) fun _ => .finish (.ok .null)),
    (TaskDefinition.ofComputation ⟨"b"⟩ fun _ => .finish (.ok .null)).dependsOn ⟨"a"⟩]

/-- The graph of the two tasks. -/
def alarmGraph : TaskGraph := ⟨alarmTasks, [⟨"a"⟩, ⟨"b"⟩]⟩

/-- The jobs of the two tasks. -/
def alarmPlan : Plan := .ofGraph alarmGraph (fun _ _ => .error "") default

/-- The machine right after the move with which task `a` interrupts the run. -/
def alarmMoment : Machine :=
  ((move alarmPlan 0 {})^[6] (start alarmPlan 1 (Machine.world ⟨1, []⟩))).move alarmPlan 0 {}

/-- The poll of task `a` goes on, and the jobs are polled again. -/
def alarmActions : List Action := [.poll 0 {}, .poll 1 {}, .poll 0 {}, .poll 1 {}]

/-- Task `a` was under way and comes to its end, and `b` stays pending. -/
theorem alarm_settles :
    let m := alarmMoment.run alarmPlan alarmActions
    HasStarted (SystemState.changesOf ⟨"a"⟩ alarmMoment.events) ∧ m.allEnded = true ∧
      (∃ i, CompletesOnce alarmPlan 1 (Machine.world ⟨1, []⟩) alarmMoment m i ⟨"a"⟩) ∧
      (SystemState.empty.fold m.events).get? ⟨"b"⟩ = some (.fresh ⟨"b"⟩ "b") := by
  intro m
  have hbuild : TaskGraph.build alarmTasks = .ok alarmGraph := rfl
  have hslots : Slots.ofLimit? 1 = .ok (Machine.world ⟨1, []⟩).slots := rfl
  have hpanic : alarmPlan.NeverPanics := by
    intro i j hj behaviour hwork n
    match i with
    | 0 =>
      cases hj
      cases hwork
      exact .trigger _ (.sleep _ _ fun _ => .finish _ (by simp))
    | 1 => cases hj; cases hwork; exact .finish _ (by simp)
    | i + 2 => cases hj
  have htriggered : Triggered alarmPlan 1 (Machine.world ⟨1, []⟩) alarmMoment :=
    @Triggered.within alarmPlan 1 _ [] 0 {} _ (fun x hx => nomatch hx)
      (polls_iterate 6 _ (by decide +kernel)) (by decide +kernel) (by decide +kernel)
  obtain ⟨-, -, -, hsettles, hended⟩ :=
    interrupt_settles hbuild hslots (fun _ _ => .error "") default hpanic 1 htriggered alarmActions
  obtain ⟨hall, -⟩ := hsettles (by decide +kernel)
  obtain ⟨-, -, -, htasks⟩ := hended hall
  have htoldA : SystemState.changesOf ⟨"a"⟩ alarmMoment.events =
      [.registered "a", .started (.ofMillis 0)] := by decide +kernel
  have htoldB : SystemState.changesOf ⟨"b"⟩ alarmMoment.events = [.registered "b"] := by
    decide +kernel
  have hstarted : HasStarted (SystemState.changesOf ⟨"a"⟩ alarmMoment.events) := by
    rw [htoldA]
    exact ⟨_, List.mem_cons_of_mem _ List.mem_cons_self⟩
  refine ⟨hstarted, hall, ?_, ?_⟩
  · obtain ⟨i, u, outcome, -, -, -, hcompletes, -⟩ :=
      htasks alarmTasks[0] (by simp [alarmGraph, alarmTasks])
    refine ⟨i, hcompletes hstarted ?_⟩
    rintro ⟨time, outcome, hmem⟩
    cases List.mem_pair.1 (htoldA ▸ hmem) <;> contradiction
  · obtain ⟨i, u, outcome, -, hu, -, -, hidle⟩ :=
      htasks alarmTasks[1] (by simp [alarmGraph, alarmTasks])
    have hfresh : (SystemState.empty.fold alarmMoment.events).get? ⟨"b"⟩ =
        some (.fresh ⟨"b"⟩ "b") := by decide +kernel
    obtain rfl := Option.some.inj (hfresh.symm.trans hu)
    refine (hidle ?_ rfl).1
    rintro ⟨time, hmem⟩
    cases List.mem_singleton.1 (htoldB ▸ hmem)

end Machine

end Taskflow
