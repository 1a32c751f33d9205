import Taskflow.Proofs.Run.Beside
import Taskflow.Run.Summary
set_option autoImplicit false

/-!
# Runs with and without log files

Whatever happens to a machine that keeps reports can happen to one that does not keep some of them,
and the other way round, action by action and at the same times. So of both runs the same is seen.

## Main definitions

* `Machine.SeenAlike` — of two runs the same is seen.

## Main results

* `Machine.Beside.run_right`, `Machine.Beside.run_left` — whatever is done with one of the machines,
  the other one can follow.
* `Machine.Beside.seenAlike` — of runs beside each other the same is seen.
-/

namespace Taskflow

/-! ### Runs -/

namespace Machine

variable {R : FileTree → FileTree → Prop} {quiet : Nat → Bool} {p : Plan} {i : Nat}
  {m m' : Machine}

/-- The queue stays open as long as a job has not ended. -/
lemma closeIfEnded_of_not_hasEnded {a : Phase} (ha : m.phaseOf? i = some a)
    (hended : a.hasEnded = false) : m.closeIfEnded = m := by
  unfold closeIfEnded
  rw [if_neg]
  intro hall
  rw [allEnded_iff.1 hall i a ha] at hended
  cases hended

/-- Where no job is, there is no move. -/
lemma nextMove?_of_none {choices : Choices} (hj : p.jobs[i]? = none) :
    m.nextMove? p i choices = none := by
  unfold nextMove?
  rw [hj]

namespace Beside

/-- The first machine makes a move, and the second one follows. -/
lemma move_right (h : Beside R quiet m m') (hp : p.Overlooks quiet R) (i : Nat)
    (choices : Choices) : ∃ n, Beside R quiet (m.step p (.move i choices))
      (m'.run (p.withoutLogs quiet) (List.replicate n (.move i choices))) := by
  rcases h.abreast_or_reporting i with hphase | ⟨hq, attempts, outcome, ha, hb⟩
  · exact ⟨1, (h.move hp hphase choices).closeIfEnded⟩
  · refine ⟨0, ?_⟩
    show Beside R quiet (m.move p i choices).closeIfEnded m'
    cases hj : p.jobs[i]? with
    | none =>
      have hstay : m.move p i choices = m := by rw [Machine.move, nextMove?_of_none hj]
      rw [hstay, closeIfEnded_of_not_hasEnded ha rfl]
      exact h
    | some j =>
      obtain ⟨hkept, hphase⟩ := h.keep hp hq hj ha hb choices
      rw [closeIfEnded_of_not_hasEnded hphase rfl]
      exact hkept

/-- The second machine makes a move, and the first one follows. -/
lemma move_left (h : Beside R quiet m m') (hp : p.Overlooks quiet R) (i : Nat)
    (choices : Choices) : ∃ n, Beside R quiet
      (m.run p (List.replicate n (.move i choices)))
      (m'.step (p.withoutLogs quiet) (.move i choices)) := by
  rcases h.abreast_or_reporting i with hphase | ⟨hq, attempts, outcome, ha, hb⟩
  · exact ⟨1, (h.move hp hphase choices).closeIfEnded⟩
  cases hj : p.jobs[i]? with
  | none =>
    refine ⟨0, ?_⟩
    have hstay : m'.move (p.withoutLogs quiet) i choices = m' := by
      rw [Machine.move, nextMove?_of_none (by rw [Plan.getElem?_withoutLogs, hj]; rfl)]
    show Beside R quiet m (m'.move _ i choices).closeIfEnded
    rw [hstay, closeIfEnded_of_not_hasEnded hb rfl]
    exact h
  | some j =>
    obtain ⟨hkept, hphase⟩ := h.keep hp hq hj ha hb choices
    have hboth : Option.Rel (Phase.Abreast R) ((m.move p i choices).phaseOf? i)
        (m'.phaseOf? i) := by
      rw [hphase, hb]
      exact .some (.plain rfl)
    refine ⟨2, ?_⟩
    show Beside R quiet (((m.move p i choices).closeIfEnded).move p i choices).closeIfEnded
      (m'.move _ i choices).closeIfEnded
    rw [closeIfEnded_of_not_hasEnded hphase rfl]
    exact (hkept.move hp hboth choices).closeIfEnded

/-- Whatever is not a matter of one job happens in both machines. -/
lemma step_of_isAmbient (h : Beside R quiet m m') (p : Plan) {x : Action}
    (hx : x.isAmbient = true) : Beside R quiet (m.step p x) (m'.step (p.withoutLogs quiet) x) := by
  cases x with
  | move | poll => cases hx
  | arrive i d => exact h.arrive i d
  | trigger => exact { h with interrupted_eq := rfl }
  | advance time => exact { h with now_eq := by simp only [step, h.now_eq] }
  | receive => exact { h with coordinator_eq := by simp only [step, h.coordinator_eq, h.now_eq] }
  | tick => exact { h with coordinator_eq := by simp only [step, h.coordinator_eq, h.now_eq] }

/-- **Whatever is done with the machine that keeps all reports, the other one can follow**, action
by action. -/
theorem run_right (h : Beside R quiet m m') (hp : p.Overlooks quiet R) (actions : List Action) :
    ∃ groups, List.Forall₂ Action.Unfolds actions groups ∧ ∀ n,
      Beside R quiet (m.run p (actions.take n))
        (m'.run (p.withoutLogs quiet) (groups.take n).flatten) := by
  have hanswers : AnswersMoves p (p.withoutLogs quiet) (Beside R quiet) :=
    fun _ _ h i choices => h.move_right hp i choices
  exact (hanswers.simulation fun _ _ h _ hx => h.step_of_isAmbient p hx).run h actions

/-- **Whatever is done with the machine that keeps fewer reports, the other one can follow**, action
by action. -/
theorem run_left (h : Beside R quiet m m') (hp : p.Overlooks quiet R) (actions : List Action) :
    ∃ groups, List.Forall₂ Action.Unfolds actions groups ∧ ∀ n,
      Beside R quiet (m.run p (groups.take n).flatten)
        (m'.run (p.withoutLogs quiet) (actions.take n)) := by
  have hanswers : AnswersMoves (p.withoutLogs quiet) p fun m' m => Beside R quiet m m' :=
    fun _ _ h i choices => h.move_left hp i choices
  exact (hanswers.simulation fun _ _ h _ hx => h.step_of_isAmbient p hx).run h actions

end Beside

/-! ### What is seen of a run -/

/-- The run of a plan begins in the same way without some log files. -/
lemma start_withoutLogs (p : Plan) (quiet : Nat → Bool) (interval : Nat) (world : Machine) :
    start (p.withoutLogs quiet) interval world = start p interval world := by
  have hjobs : ((p.withoutLogs quiet).jobs.map fun j => ({ phase := firstPhase j } : JobState)) =
      p.jobs.map fun j => { phase := firstPhase j } := by
    refine Array.ext_getElem? fun i => ?_
    rw [Array.getElem?_map, Array.getElem?_map, Plan.getElem?_withoutLogs, Option.map_map]
    rfl
  have hready : ready (p.withoutLogs quiet) interval world = ready p interval world := by
    rw [ready, ready, hjobs, registered, registered, Plan.registrations_withoutLogs]
  rw [start, start, hready, Plan.registrations_withoutLogs]

/-- A run begins with the files of the world. -/
lemma start_files (p : Plan) (interval : Nat) (world : Machine) :
    (start p interval world).files = world.files := by
  rw [start_eq, ready]

/-- Both runs begin beside each other. -/
lemma beside_start (p : Plan) (quiet : Nat → Bool) (interval : Nat) {world : Machine}
    (hR : R world.files world.files) :
    Beside R quiet (start p interval world) (start (p.withoutLogs quiet) interval world) := by
  rw [start_withoutLogs]
  refine ⟨rfl, rfl, rfl, rfl, rfl, rfl, by rwa [start_files], fun i => ?_⟩
  rw [start_jobs, Array.getElem?_map]
  cases p.jobs[i]? with
  | none => exact .none
  | some j =>
    refine .some ⟨.plain ?_, rfl, fun _ => rfl⟩
    show (firstPhase j).isPlain = true
    unfold firstPhase
    split <;> rfl

/-- Of two runs the same is seen: the events and when they were emitted, what the coordinator has
told and is to tell, what jobs noted, who has a slot and who waits for one, how jobs ended, what
they resulted in, and what is reported in the end. -/
structure SeenAlike (p p' : Plan) (m m' : Machine) : Prop where
  now_eq : m.now = m'.now
  interrupted_eq : m.interrupted = m'.interrupted
  slots_eq : m.slots = m'.slots
  emissions_eq : m.emissions = m'.emissions
  coordinator_eq : m.coordinator = m'.coordinator
  journal_eq : m.journal = m'.journal
  outcome_eq : ∀ k, m.outcomeOf? k = m'.outcomeOf? k
  result_eq : ∀ k, m.resultOf? k = m'.resultOf? k
  allEnded_eq : m.allEnded = m'.allEnded
  graphResult_eq : GraphResult.ofMachine p m = GraphResult.ofMachine p' m'
  summary_eq : ∀ run duration, RunSummary.ofResult run duration (.ofMachine p m) =
    RunSummary.ofResult run duration (.ofMachine p' m')

namespace Beside

/-- What is collected of all jobs is the same, if it is the same of each. -/
lemma filterMap_eq (h : Beside R quiet m m') {α : Type} {f : Job → JobState → Option α}
    (hf : ∀ (j : Job) (s s' : JobState) (q : Bool), s.Beside R q s' →
      f j s = f (j.withoutLogIf q) s') :
    (p.jobs.toList.zip m.jobs.toList).filterMap (fun x => f x.1 x.2) =
      ((p.withoutLogs quiet).jobs.toList.zip m'.jobs.toList).filterMap (fun x => f x.1 x.2) := by
  have hmap : (p.jobs.toList.zip m.jobs.toList).map (fun x => f x.1 x.2) =
      ((p.withoutLogs quiet).jobs.toList.zip m'.jobs.toList).map (fun x => f x.1 x.2) := by
    refine List.ext_getElem? fun i => ?_
    have hjob := h.jobs i
    rw [List.getElem?_map, List.getElem?_map, List.zip_eq_zipWith, List.zip_eq_zipWith,
      List.getElem?_zipWith, List.getElem?_zipWith, Array.getElem?_toList, Array.getElem?_toList,
      Array.getElem?_toList, Array.getElem?_toList, Plan.getElem?_withoutLogs]
    generalize m.jobs[i]? = a, m'.jobs[i]? = b at hjob
    cases p.jobs[i]? with
    | none => rfl
    | some j =>
      cases hjob with
      | none => rfl
      | some hs => exact congrArg some (hf j _ _ _ hs)
  have hid := congrArg (List.filterMap id) hmap
  rwa [List.filterMap_map, List.filterMap_map] at hid

/-- **Of runs beside each other the same is seen.** -/
theorem seenAlike (h : Beside R quiet m m') : SeenAlike p (p.withoutLogs quiet) m m' := by
  have hresult : GraphResult.ofMachine p m =
      GraphResult.ofMachine (p.withoutLogs quiet) m' := by
    have houtcomes := h.filterMap_eq (p := p) (f := GraphResult.outcomeOf) fun j s s' q hs => by
      have hphase := hs.phase
      unfold GraphResult.outcomeOf
      generalize s.phase = a, s'.phase = b at hphase
      cases hphase with
      | reporting => rfl
      | abreast hab =>
        cases hab with
        | plain => simp only [Job.withoutLogIf, TaskDefinition.id_withoutLogIf]
        | _ => rfl
    have hresults := h.filterMap_eq (p := p) (f := GraphResult.resultOf) fun j s s' q hs => by
      have hphase := hs.phase
      unfold GraphResult.resultOf
      generalize s.phase = a, s'.phase = b at hphase
      cases hphase with
      | reporting => rfl
      | abreast hab =>
        cases hab with
        | plain => simp only [Job.withoutLogIf, TaskDefinition.id_withoutLogIf]
        | _ => rfl
    simp only [GraphResult.ofMachine, houtcomes, hresults, h.coordinator_eq, h.interrupted_eq]
  exact
    { now_eq := h.now_eq
      interrupted_eq := h.interrupted_eq
      slots_eq := h.slots_eq
      emissions_eq := h.emissions_eq
      coordinator_eq := h.coordinator_eq
      journal_eq := h.journal_eq
      outcome_eq := h.outcomeOf?_eq
      result_eq := h.resultOf?_eq
      allEnded_eq := h.allEnded_eq
      graphResult_eq := hresult
      summary_eq := fun run duration => by rw [hresult] }

end Beside

end Machine

end Taskflow
