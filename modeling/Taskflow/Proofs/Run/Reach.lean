import Mathlib.Logic.Relation
import Taskflow.Proofs.Run.Moves
import Taskflow.Run.Step
set_option autoImplicit false

/-!
# Reached machines

Everything that can happen comes down to three kinds of small steps: a move of a job, a job that
hears from another one, and a change of the surroundings, by which the coordinator, the interrupt
or the clock go on. A machine is reached if small steps lead to it from the start of a run.

## Main definitions

* `Machine.Step` — one small step.
* `Machine.Reached` — small steps from the start of a run.

## Main results

* `Machine.reached_run` — whatever actions are carried out, the machine is a reached one.
* `Machine.Reached.of_prefix` — what was emitted first is all that an earlier machine had emitted.

## Design

A poll is many moves and emits many events. Small steps emit one event at most, so that every
prefix of the queue is the whole queue of some reached machine. What is shown of all events of all
reached machines then holds for every prefix.
-/

namespace Taskflow

open Relation

namespace Machine

variable {p : Plan} {i k : Nat} {choices : Choices} {m m' : Machine} {v : Move} {interval : Nat}
  {world : Machine}

/-! ### Small steps -/

/-- The coordinators that can follow that of a machine while no job moves. -/
inductive Serves (m : Machine) : Coordinator → Prop
  | rest : Serves m m.coordinator
  | close (h : m.allEnded = true) : Serves m m.coordinator.close
  | receive (now : Nat) : Serves m (m.coordinator.receive now)
  | tick (now : Nat) : Serves m (m.coordinator.tick now)

/-- One small step. -/
inductive Step (p : Plan) : Machine → Machine → Prop
  | move {m : Machine} {i : Nat} {choices : Choices} {v : Move}
    (h : m.nextMove? p i choices = some v) : Step p m (m.make p i v)
  | arrive {m : Machine} {i d : Nat} {unseen arrived : List Nat} {outcome : NodeOutcome}
    (hi : m.phaseOf? i = some (.waiting unseen arrived)) (hd : m.outcomeOf? d = some outcome)
    (hmem : d ∈ unseen) :
    Step p m (m.setPhase i (.waiting (unseen.erase d) (arrived ++ [d])))
  | ambient {m : Machine} {c : Coordinator} (now : Nat) (interrupted : Bool) (hc : m.Serves c)
    (hm : m.interrupted = true → interrupted = true) :
    Step p m { m with now, interrupted, coordinator := c }

/-- The machines that small steps lead to from the start of a run. -/
def Reached (p : Plan) (interval : Nat) (world m : Machine) : Prop :=
  ReflTransGen (Step p) (start p interval world) m

/-! ### Actions as small steps -/

/-- The queue is closed in a small step. -/
lemma steps_closeIfEnded : ReflTransGen (Step p) m m.closeIfEnded := by
  unfold closeIfEnded
  split
  next h => exact .single (.ambient m.now m.interrupted (.close h) id)
  next => exact .refl

/-- What a move that can be made keeps, is kept whether it can be made or not. -/
lemma move_keeps {P : Machine → Prop}
    (hmake : ∀ v, m.nextMove? p i choices = some v → P (m.make p i v)) (hm : P m) :
    P (m.move p i choices) := by
  unfold move
  split
  next v h => exact hmake v h
  next => exact hm

/-- What every move keeps, a poll keeps. -/
lemma poll_keeps {P : Machine → Prop}
    (hmake : ∀ m v, m.nextMove? p i choices = some v → P m → P (m.make p i v)) (hm : P m) :
    P (m.poll p i choices) := by
  induction m using poll.induct p i choices with
  | case1 m h => rwa [poll_of_none h]
  | case2 m v h hr =>
    rw [poll_of_some h, if_pos hr]
    exact hmake m v h hm
  | case3 m v h hr ih =>
    rw [poll_of_some h, if_neg hr]
    exact ih (hmake m v h hm)

/-- A move is one small step, if it is one at all. -/
lemma steps_move (i : Nat) (choices : Choices) :
    ReflTransGen (Step p) m (m.move p i choices) :=
  move_keeps (fun _ h => .single (.move h)) .refl

/-- A poll is a number of small steps. -/
lemma steps_poll (i : Nat) (choices : Choices) (m : Machine) :
    ReflTransGen (Step p) m (m.poll p i choices) :=
  poll_keeps (fun _ _ h hsteps => hsteps.tail (.move h)) .refl

/-- An action is carried out in small steps. -/
lemma steps_step (a : Action) : ReflTransGen (Step p) m (m.step p a) := by
  cases a with
  | move i choices => exact (steps_move i choices).trans steps_closeIfEnded
  | poll i choices => exact (steps_poll i choices m).trans steps_closeIfEnded
  | arrive i d =>
    simp only [step, arrive]
    split
    next unseen arrived outcome hi hd =>
      split
      next hmem => exact .single (.arrive hi hd hmem)
      next => exact .refl
    next => exact .refl
  | trigger => exact .single (.ambient m.now true .rest fun _ => rfl)
  | advance time => exact .single (.ambient (max m.now time) m.interrupted .rest id)
  | receive => exact .single (.ambient m.now m.interrupted (.receive m.now) id)
  | tick => exact .single (.ambient m.now m.interrupted (.tick m.now) id)

/-- Actions are carried out in small steps. -/
lemma steps_run (actions : List Action) : ReflTransGen (Step p) m (m.run p actions) := by
  induction actions generalizing m with
  | nil => exact .refl
  | cons a rest ih => exact (steps_step a).trans ih

/-- **Whatever actions are carried out, the machine is a reached one.** -/
theorem reached_run (actions : List Action) :
    Reached p interval world ((start p interval world).run p actions) := steps_run actions

/-! ### The start of a run -/

/-- Events that are emitted are added to what was emitted before and to the queue, and change
nothing else. -/
lemma emitAll_eq (events : List (TaskEvent × Nat)) (m : Machine) : m.emitAll events =
    { m with
      emissions := (events.map fun e => (⟨m.now, e.2, e.1⟩ : Emission)).reverse ++ m.emissions
      coordinator := { m.coordinator with
        pending := m.coordinator.pending ++ (events.map (·.1)).toArray } } := by
  induction events generalizing m with
  | nil => simp [emitAll]
  | cons e rest ih =>
    refine (ih (m.emit e.2 e.1)).trans ?_
    simp [emit, Coordinator.send]

/-- Nothing but the queue is closed. -/
lemma closeIfEnded_eq : m.closeIfEnded = { m with coordinator := m.closeIfEnded.coordinator } := by
  unfold closeIfEnded
  split <;> rfl

/-- Every job stands where it stood when the queue is closed. -/
lemma closeIfEnded_phaseOf? (m : Machine) (i : Nat) : m.closeIfEnded.phaseOf? i = m.phaseOf? i := by
  rw [closeIfEnded_eq]
  rfl

/-- A run begins with its registrations, in a world whose jobs are those of the plan. -/
lemma start_eq : start p interval world = { ready p interval world with
    emissions := (p.registrations.map fun e => (⟨world.now, e.2, e.1⟩ : Emission)).reverse
    coordinator := (start p interval world).coordinator } := by
  unfold start
  rw [closeIfEnded_eq, emitAll_eq]
  simp [ready]

/-- Every job begins in its first phase, and with nothing in its state. -/
lemma start_jobs :
    (start p interval world).jobs = p.jobs.map fun j => { phase := firstPhase j } := by
  rw [start_eq, ready]

/-- A run begins with the slots of the world. -/
lemma start_slots : (start p interval world).slots = world.slots := by
  rw [start_eq, ready]

/-- A run begins at the time of the world. -/
lemma start_now : (start p interval world).now = world.now := by
  rw [start_eq, ready]

/-- A run begins with the journal of the world. -/
lemma start_journal : (start p interval world).journal = world.journal := by
  rw [start_eq, ready]

/-- A run is interrupted from the beginning if the world is. -/
lemma start_interrupted : (start p interval world).interrupted = world.interrupted := by
  rw [start_eq, ready]

/-- Before the first step, the registrations have been emitted. -/
lemma start_emissions : (start p interval world).emissions =
    (p.registrations.map fun e => (⟨world.now, e.2, e.1⟩ : Emission)).reverse := by
  rw [start_eq]

/-- Every job begins in its first phase. -/
lemma start_phaseOf? : (start p interval world).phaseOf? i = (p.jobs[i]?).map firstPhase := by
  rw [phaseOf?, start_jobs, Array.getElem?_map, Option.map_map]
  rfl

/-! ### Events -/

/-- Before the first step, the registrations are in the queue. -/
lemma events_start : (start p interval world).events = p.registrations.map (·.1) := by
  simp [events, start_emissions, Function.comp_def]

/-- Before the first step, nothing but registrations has been emitted. -/
lemma registered_of_mem_start {e : Emission} (he : e ∈ (start p interval world).emissions) :
    ∃ name, e.event.change = .registered name := by
  rw [start_emissions, List.mem_reverse, List.mem_map] at he
  obtain ⟨x, hx, rfl⟩ := he
  obtain ⟨y, -, rfl⟩ := List.mem_map.1 hx
  exact ⟨_, rfl⟩

/-- A step emits one event at most, and registers nothing. -/
lemma Step.emissions_eq (h : Step p m m') : m'.emissions = m.emissions ∨
    ∃ e, m'.emissions = e :: m.emissions ∧ ∀ name, e.event.change ≠ .registered name := by
  cases h with
  | move hv =>
    obtain ⟨j, s, hj, -, hmove⟩ := moves_of_nextMove? hv
    rw [make_emissions hj]
    cases hc : Deed.told _ with
    | none => exact .inl rfl
    | some c => exact .inr ⟨_, rfl, hmove.told_ne_registered hc⟩
  | arrive => exact .inl rfl
  | ambient => exact .inl rfl

/-- What has been emitted stays emitted, and nothing is registered later. -/
lemma emissions_of_steps (h : ReflTransGen (Step p) m m') : ∃ es,
    m'.emissions = es ++ m.emissions ∧ ∀ e ∈ es, ∀ name, e.event.change ≠ .registered name := by
  induction h with
  | refl => exact ⟨[], rfl, fun e he => nomatch he⟩
  | tail _ hs ih =>
    obtain ⟨es, hes, hnot⟩ := ih
    rcases hs.emissions_eq with he | ⟨e, he, hne⟩
    · exact ⟨es, he ▸ hes, hnot⟩
    · exact ⟨e :: es, by rw [he, hes]; rfl, List.forall_mem_cons.2 ⟨hne, hnot⟩⟩

/-- What was emitted stays at the front of the queue. -/
lemma events_prefix_of_steps (h : ReflTransGen (Step p) m m') : m.events <+: m'.events := by
  obtain ⟨es, hes, -⟩ := emissions_of_steps h
  rw [events, events, hes]
  exact (List.reverse_prefix.2 (List.suffix_append _ _)).map _

/-- The queue of a reached machine is that of the start and events that register nothing. -/
lemma Reached.events_eq (h : Reached p interval world m) : ∃ es,
    m.events = p.registrations.map (·.1) ++ es ∧ ∀ e ∈ es, ∀ name, e.change ≠ .registered name := by
  obtain ⟨es, hes, hnot⟩ := emissions_of_steps h
  refine ⟨es.reverse.map (·.event), ?_, fun e he => ?_⟩
  · have hstart : (start p interval world).events = p.registrations.map (·.1) := events_start
    rw [← hstart, events, events, hes, List.reverse_append, List.map_append]
  · obtain ⟨x, hx, rfl⟩ := List.mem_map.1 he
    exact hnot x (List.mem_reverse.1 hx)

/-- **What was emitted first is all that an earlier machine had emitted**, unless it is a part of
the registrations. -/
theorem Reached.of_prefix (h : Reached p interval world m) {es : List Emission}
    (hes : es <+: m.emissions.reverse) :
    es <+: (start p interval world).emissions.reverse ∨
      ∃ m₀, Reached p interval world m₀ ∧ ReflTransGen (Step p) m₀ m ∧
        m₀.emissions.reverse = es := by
  induction h with
  | refl => exact .inl hes
  | tail hr hs ih =>
    have hlater : ∀ {es : List Emission}, (∃ m₀, Reached p interval world m₀ ∧
        ReflTransGen (Step p) m₀ _ ∧ m₀.emissions.reverse = es) →
        ∃ m₀, Reached p interval world m₀ ∧ ReflTransGen (Step p) m₀ _ ∧
          m₀.emissions.reverse = es :=
      fun ⟨m₀, h₀, h₁, he⟩ => ⟨m₀, h₀, h₁.tail hs, he⟩
    rcases hs.emissions_eq with he | ⟨e, he, -⟩
    · exact (ih (he ▸ hes)).imp id hlater
    · rw [he, List.reverse_cons, List.prefix_concat_iff] at hes
      rcases hes with rfl | hes
      · exact .inr ⟨_, hr.tail hs, .refl, by rw [he, List.reverse_cons]⟩
      · exact (ih hes).imp id hlater

/-- The same for events: a first part of the queue consists of registrations, or it is the whole
queue of an earlier machine. -/
theorem Reached.of_events_prefix (h : Reached p interval world m) {es : List TaskEvent}
    (hes : es <+: m.events) : (∀ e ∈ es, ∃ name, e.change = .registered name) ∨
      ∃ m₀, Reached p interval world m₀ ∧ ReflTransGen (Step p) m₀ m ∧ m₀.events = es := by
  obtain ⟨l, hl, rfl⟩ := List.prefix_map_iff.1 hes
  rcases h.of_prefix hl with hreg | ⟨m₀, h₀, hsteps, rfl⟩
  · refine .inl fun e he => ?_
    obtain ⟨x, hx, rfl⟩ := List.mem_map.1 he
    exact registered_of_mem_start (List.mem_reverse.1 (hreg.subset hx))
  · exact .inr ⟨m₀, h₀, hsteps, rfl⟩

/-! ### What does not go away -/

/-- A run that is interrupted stays so. -/
lemma Step.interrupted_of (h : Step p m m') (hm : m.interrupted = true) :
    m'.interrupted = true := by
  cases h with
  | move hv =>
    obtain ⟨j, s, hj, -, -⟩ := moves_of_nextMove? hv
    rw [make_interrupted hj]
    split
    · rfl
    · exact hm
  | arrive => exact hm
  | ambient _ _ _ hi => exact hi hm

/-- A run that was interrupted stays so. -/
lemma interrupted_of_steps (h : ReflTransGen (Step p) m m') (hm : m.interrupted = true) :
    m'.interrupted = true := by
  induction h with
  | refl => exact hm
  | tail _ hs ih => exact hs.interrupted_of ih

/-- A run that is not interrupted was not interrupted before. -/
lemma not_interrupted_of_steps (h : ReflTransGen (Step p) m m') (hm : m'.interrupted = false) :
    m.interrupted = false := by
  rw [← Bool.not_eq_true]
  intro hbefore
  rw [interrupted_of_steps h hbefore] at hm
  cases hm

/-- In every step the jobs stay the same. -/
lemma Step.isSome_phaseOf? (h : Step p m m') (k : Nat) :
    (m'.phaseOf? k).isSome = (m.phaseOf? k).isSome := by
  cases h with
  | move hv =>
    rename_i i choices v
    obtain ⟨j, s, hj, hs, -⟩ := moves_of_nextMove? hv
    by_cases hk : i = k
    · subst hk; rw [phaseOf?_make_self hv, hs]; rfl
    · rw [phaseOf?_make_of_ne hj hk]; split <;> simp
  | arrive hi =>
    rw [phaseOf?_setPhase]
    split <;> simp
  | ambient => rfl

/-- The jobs of a machine are those of the plan. -/
lemma Reached.isSome_phaseOf? (h : Reached p interval world m) (k : Nat) :
    (m.phaseOf? k).isSome = (p.jobs[k]?).isSome := by
  induction h with
  | refl => rw [start_phaseOf?, Option.isSome_map]
  | tail _ hs ih => rw [hs.isSome_phaseOf?, ih]

/-- A job of a machine is a job of the plan. -/
lemma Reached.job_of_phaseOf? (h : Reached p interval world m) {phase : Phase}
    (hk : m.phaseOf? k = some phase) : ∃ j, p.jobs[k]? = some j := by
  rw [← Option.isSome_iff_exists, ← h.isSome_phaseOf?, hk]
  rfl

/-- Every job of the plan has a phase. -/
lemma Reached.phaseOf?_of_job (h : Reached p interval world m) {j : Job}
    (hj : p.jobs[k]? = some j) : ∃ phase, m.phaseOf? k = some phase := by
  rw [← Option.isSome_iff_exists, h.isSome_phaseOf?, hj]
  rfl

end Machine

end Taskflow
