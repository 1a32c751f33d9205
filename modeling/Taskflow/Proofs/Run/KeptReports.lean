import Taskflow.Proofs.Run.Beside
import Taskflow.Proofs.Run.Ceiling
import Taskflow.Proofs.Run.LastAttempt
import Taskflow.Proofs.Run.Snapshots
import Taskflow.Proofs.Run.Topological
set_option autoImplicit false

/-!
# Reports are kept before anything shows the end

A task with a log file keeps its report in a step of its own. Before this step its job has not told
that it came to its end, holds its slot, and shows nobody an outcome. So whoever sees that the task
is over, in whatever way, finds that the report was kept before.

## Main definitions

* `Machine.Keeps` — a step in which a job keeps its report.
* `Machine.HasKept` — a trail comes through such a step.
* `Machine.ShowsEnd` — something shows that a task is over.

## Main results

* `Machine.Step.saves` — the step from `reporting` to `completing` writes the report to its file.
* `Machine.Trail.hasKept_of_isPast` — whoever is past the report has kept it.
* `Machine.Trail.hasKept_of_showsEnd` — a report is kept before anything shows the end.
-/

namespace Taskflow

open TaskChange

namespace Machine

variable {p : Plan} {j : Job} {a b : Phase} {k : Nat} {m m' : Machine} {ms : List Machine}
  {c : Option TaskChange} {cs : List TaskChange} {attempts : UInt32} {outcome : TaskOutcome}
  {path : String} {interval limit : Nat} {world : Machine}

/-! ### The step that keeps a report -/

/-- In this step job `k` keeps its report in a file, as far as the file can be written. Neither
before nor after it has the job told its end, given its slot back or shown an outcome. -/
structure Keeps (k : Nat) (j : Job) (path : String) (s : JobState) (attempts : UInt32)
    (outcome : TaskOutcome) (before after : Machine) : Prop where
  state_eq : before.jobs[k]? = some s
  reporting : s.phase = .reporting attempts outcome
  completing : after.phaseOf? k = some (.completing attempts outcome)
  files_eq : after.files = (before.files.trySave FileTree.workingDir path
    (before.reportOf j s outcome).text).1
  emissions_eq : after.emissions = before.emissions
  now_eq : after.now = before.now
  not_completed : ¬ HasCompleted (after.toldBy k)
  held : after.claimOf k = .held
  unsettled : after.outcomeOf? k = none

/-- On a trail, job `k` has kept its report. -/
def HasKept (k : Nat) (j : Job) (path : String) (ms : List Machine) : Prop :=
  ∃ later after before earlier s attempts outcome, ms = later ++ after :: before :: earlier ∧
    Keeps k j path s attempts outcome before after

/-- **The step from `reporting` to `completing` writes the report to its file** and tells nothing:
no other step of a job and nothing else leads there. -/
lemma Step.saves (hs : Step p m m') (hj : p.jobs[k]? = some j) (hlog : j.task.logFile = some path)
    {s : JobState} (hstate : m.jobs[k]? = some s) (hphase : s.phase = .reporting attempts outcome)
    (hb : m'.phaseOf? k = some (.completing attempts outcome)) :
    m'.files =
        (m.files.trySave FileTree.workingDir path (m.reportOf j s outcome).text).1 ∧
      m'.emissions = m.emissions ∧ m'.now = m.now := by
  have ha : m.phaseOf? k = some (.reporting attempts outcome) := by
    rw [phaseOf?_of_state hstate, hphase]
  cases hs with
  | move hv =>
    rename_i i choices v
    obtain ⟨j', s', hj', hs', hmove⟩ := moves_of_nextMove? hv
    by_cases hk : i = k
    · subst hk
      obtain rfl : j' = j := Option.some.inj (hj'.symm.trans hj)
      obtain rfl : v = ⟨m.keepReport j' s outcome, .completing attempts outcome⟩ := by
        simp only [nextMove?, hj, hstate, moveOf?, hphase, Option.some.injEq] at hv
        exact hv.symm
      refine ⟨?_, ?_, make_now hj⟩
      · have hfiles : (m.make p i ⟨m.keepReport j' s outcome, .completing attempts outcome⟩).files =
            (m.keepReport j' s outcome).leaves m.files := by
          simp only [make, hj]
          exact perform_files
        rw [hfiles, leaves_keepReport, hlog]
      · rw [make_emissions hj, told_keepReport]
        rfl
    · rw [phaseOf?_make_of_ne hj' hk, ha] at hb
      split at hb <;> cases hb
  | arrive hi =>
    rw [phaseOf?_setPhase, ha] at hb
    split at hb <;> cases hb
  | ambient =>
    have hsame : some (Phase.reporting attempts outcome) = some (.completing attempts outcome) :=
      ha.symm.trans hb
    cases hsame

/-- Such a step keeps the report. -/
lemma Step.keeps (hslots : Slots.ofLimit? limit = .ok world.slots)
    (h : Reached p interval world m) (hs : Step p m m') (hj : p.jobs[k]? = some j)
    (hlog : j.task.logFile = some path) (ha : m.phaseOf? k = some (.reporting attempts outcome))
    (hb : m'.phaseOf? k = some (.completing attempts outcome)) :
    ∃ s, Keeps k j path s attempts outcome m m' := by
  obtain ⟨s, hstate, hphase⟩ := Option.map_eq_some_iff.1 ha
  have hnext : Reached p interval world m' := h.tail hs
  obtain ⟨hfiles, hemissions, hnow⟩ := hs.saves hj hlog hstate hphase hb
  obtain ⟨cs, htold, hcs⟩ := hnext.told hslots hj hb
  have hsilent : ¬ HasCompleted (m'.toldBy k) := by
    rw [htold, hasCompleted_registration]
    exact Underway.not_completed hcs
  refine ⟨s, hstate, hphase, hb, hfiles, hemissions, hnow, hsilent, ?_, ?_⟩
  · rw [claimOf_of_phaseOf? hb]
    rfl
  · rw [outcomeOf?, hb]

/-! ### Past the report -/

/-- A job that stands here has kept its report, if its task has a log file. -/
def IsPast (a : Phase) (told : List TaskChange) : Prop :=
  (∃ attempts outcome, a = .completing attempts outcome) ∨
    (∃ attempts outcome, a = .releasing attempts outcome) ∨ HasCompleted told

/-- A turn leads past the report only from `reporting` to `completing`, or from behind it. -/
lemma Turn.isPast (hlog : j.task.logFile.isSome = true) (h : Turn p j m a c b)
    {told : List TaskChange} (hb : IsPast b (told ++ c.toList)) :
    IsPast a told ∨ ∃ attempts outcome, a = .reporting attempts outcome ∧
      b = .completing attempts outcome := by
  have hconcluded : ∀ {attempts : UInt32} {outcome : TaskOutcome},
      IsPast (concluded j.task attempts outcome) (told ++ []) → IsPast a told := by
    intro attempts outcome hpast
    rw [concluded, if_pos hlog, List.append_nil] at hpast
    rcases hpast with ⟨_, _, h⟩ | ⟨_, _, h⟩ | h
    · cases h
    · cases h
    · exact .inr (.inr h)
  have htold : ∀ {c : TaskChange}, HasCompleted (told ++ [c]) →
      (∀ time outcome, c ≠ .completed time outcome) → HasCompleted told := by
    rintro c ⟨time, outcome, hmem⟩ hc
    rcases List.mem_append.1 hmem with hmem | hmem
    · exact ⟨time, outcome, hmem⟩
    · exact absurd (List.mem_singleton.1 hmem).symm (hc time outcome)
  cases h with
  | stay => exact .inl ((List.append_nil told) ▸ hb)
  | grant | hear =>
    rcases hb with ⟨_, _, h⟩ | ⟨_, _, h⟩ | h
    · cases h
    · cases h
    · exact .inl (.inr (.inr ((List.append_nil told) ▸ h)))
  | move h =>
    cases h with
    | keep attempts outcome => exact .inr ⟨attempts, outcome, rfl, rfl⟩
    | complete attempts outcome => exact .inl (.inl ⟨attempts, outcome, rfl⟩)
    | release attempts outcome => exact .inl (.inr (.inl ⟨attempts, outcome, rfl⟩))
    | succeed | exhaust | stop => exact .inl (hconcluded hb)
    | block | start | emit | retry =>
      rcases hb with ⟨_, _, h⟩ | ⟨_, _, h⟩ | h
      · cases h
      · cases h
      · exact .inl (.inr (.inr (htold h (by simp))))
    | _ =>
      rcases hb with ⟨_, _, h⟩ | ⟨_, _, h⟩ | h
      · cases h
      · cases h
      · exact .inl (.inr (.inr ((List.append_nil told) ▸ h)))

/-- Before its first turn, no job is past its report. -/
lemma not_isPast_start (j : Job) : ¬ IsPast (firstPhase j) j.registration := by
  have hfirst : ∀ attempts outcome, firstPhase j ≠ .completing attempts outcome ∧
      firstPhase j ≠ .releasing attempts outcome := by
    intro attempts outcome
    unfold firstPhase
    split <;> simp
  rintro (⟨attempts, outcome, h⟩ | ⟨attempts, outcome, h⟩ | h)
  · exact (hfirst attempts outcome).1 h
  · exact (hfirst attempts outcome).2 h
  · rw [← List.append_nil j.registration, hasCompleted_registration] at h
    obtain ⟨_, _, hmem⟩ := h
    cases hmem

/-- **Whoever is past the report has kept it.** -/
theorem Trail.hasKept_of_isPast (hslots : Slots.ofLimit? limit = .ok world.slots)
    (h : Trail p interval world (m :: ms)) (hj : p.jobs[k]? = some j)
    (hlog : j.task.logFile = some path) (ha : m.phaseOf? k = some a)
    (hpast : IsPast a (m.toldBy k)) : HasKept k j path (m :: ms) := by
  refine h.induct_job hslots hj (I := fun ms a told => IsPast a told → HasKept k j path ms) ?_ ?_
    ha hpast
  · exact fun h => absurd h (not_isPast_start j)
  · intro m m' ms a c b h hstep hturn ha hb hkept hpast
    rcases hturn.isPast (by rw [hlog]; rfl) hpast with hpast | ⟨attempts, outcome, rfl, rfl⟩
    · obtain ⟨later, after, before, earlier, s, attempts, outcome, hms, hkeeps⟩ := hkept hpast
      exact ⟨m' :: later, after, before, earlier, s, attempts, outcome, by rw [hms]; rfl, hkeeps⟩
    · obtain ⟨s, hkeeps⟩ := hstep.keeps hslots h.reached hj hlog ha hb
      exact ⟨[], m', m, ms, s, attempts, outcome, rfl, hkeeps⟩

/-! ### Whoever sees the end -/

/-- Something shows that the task of job `k` is over: it has told its end; it has started, its work
has not broken down, and it has given its slot back or shown an outcome; a job that depends on it
has started; or, if tasks can be told apart, somebody was shown a state in which the task has come
to its end. -/
inductive ShowsEnd (p : Plan) (k : Nat) (j : Job) (m : Machine) : Prop
  | completed (h : HasCompleted (m.toldBy k))
  | released (hstarted : HasStarted (m.toldBy k))
    (hwhole : ∀ a, m.phaseOf? k = some a → a.isBroken = false) (h : m.claimOf k ≠ .held)
  | signalled (hstarted : HasStarted (m.toldBy k))
    (hwhole : ∀ a, m.phaseOf? k = some a → a.isBroken = false)
    (h : (m.outcomeOf? k).isSome = true)
  | dependent {d : Nat} {j' : Job} (hd : p.jobs[d]? = some j') (hk : k ∈ j'.awaited)
    (h : HasStarted (m.toldBy d))
  | snapshot {s : SystemState} {u : TaskState} (hp : p.Linked) (hs : s ∈ m.snapshots)
    (hu : s.get? j.task.id = some u) (h : u.status.isTerminal = true)

/-- A job that has started and holds no slot any more has told its end, unless its work broke down.
-/
lemma hasCompleted_of_released {i : Bool} (htold : a.Told i cs) (hstarted : HasStarted cs)
    (hwhole : a.isBroken = false) (hclaim : a.claim ≠ .held) : HasCompleted cs := by
  have hidle : ¬ HasStarted [] := fun ⟨_, hmem⟩ => nomatch hmem
  have hsettled : ∀ {outcome : NodeOutcome} {result : Option TaskResult},
      Settled i cs outcome result → HasCompleted cs := by
    intro outcome result h
    cases result with
    | none =>
      rcases h with ⟨-, d, rfl⟩ | ⟨-, rfl⟩
      · obtain ⟨time, hmem⟩ := hstarted
        simp at hmem
      · exact absurd hstarted hidle
    | some r =>
      rcases h with ⟨-, rfl, -⟩ | ⟨-, h⟩
      · exact absurd hstarted hidle
      · exact h.hasCompleted
  cases a with
  | settling | ended => exact hsettled htold
  | crashing | crashed => cases hwhole
  | waiting | blocking | requesting | asking | queued =>
    obtain rfl : cs = [] := htold
    exact absurd hstarted hidle
  | _ => exact absurd rfl hclaim

/-- A job that has started has seen all its dependencies succeed. -/
lemma Reached.allSucceeded_of_hasStarted (hslots : Slots.ofLimit? limit = .ok world.slots)
    (h : Reached p interval world m) (hj : p.jobs[k]? = some j)
    (hstarted : HasStarted (m.toldBy k)) : m.AllSucceeded j := by
  obtain ⟨a, ha⟩ := h.phaseOf?_of_job hj
  obtain ⟨cs, htold, hcs⟩ := h.told hslots hj ha
  rw [htold, hasStarted_registration] at hstarted
  have hnot : (cs.foldl TaskState.apply (.fresh j.task.id j.task.name)).status ≠ .pending := by
    rcases hcs.lived with rfl | ⟨d, rfl⟩ | hlived | ⟨outcome, hlived⟩
    · obtain ⟨_, hmem⟩ := hstarted
      cases hmem
    · obtain ⟨_, hmem⟩ := hstarted
      simp at hmem
    · rw [hlived.status_eq]
      simp
    · rw [hlived.status_eq]
      split <;> simp
  exact allSucceeded_of_not_pending hcs (h.gated hslots hj ha) hnot

/-- A job that others see as succeeded has told its end. -/
lemma Reached.hasCompleted_of_succeeded (hslots : Slots.ofLimit? limit = .ok world.slots)
    (h : Reached p interval world m) (hj : p.jobs[k]? = some j)
    (ho : m.outcomeOf? k = some .succeeded) : HasCompleted (m.toldBy k) := by
  obtain ⟨a, ha, hended⟩ := hasEnded_of_outcomeOf? ho
  obtain ⟨cs, htold, hcs⟩ := h.told hslots hj ha
  have hstatus := (succeeded_iff_of_told hcs ha hended j.task.id j.task.name).2 ho
  obtain ⟨outcome, hcompleted⟩ := hcs.lived.completed_of_isTerminal (by rw [hstatus]; rfl)
  rw [htold, hasCompleted_registration]
  exact hcompleted.hasCompleted

/-- A task that has come to its end in what the queue folds to has told so. -/
lemma Reached.hasCompleted_of_isTerminal (hslots : Slots.ofLimit? limit = .ok world.slots)
    (hp : p.Linked) (h : Reached p interval world m) (hj : p.jobs[k]? = some j) {u : TaskState}
    (hu : (SystemState.empty.fold m.events).get? j.task.id = some u)
    (hend : u.status.isTerminal = true) : HasCompleted (m.toldBy k) := by
  obtain ⟨a, ha⟩ := h.phaseOf?_of_job hj
  obtain ⟨cs, hcs, htold, hget⟩ := h.get?_fold_events hslots hp hj ha
  obtain rfl := Option.some.inj (hget.symm.trans hu)
  obtain ⟨outcome, hcompleted⟩ := hcs.lived.completed_of_isTerminal hend
  rw [htold, hasCompleted_registration]
  exact hcompleted.hasCompleted

/-- What a job has told stays told. -/
lemma toldBy_subset_of_steps (h : Relation.ReflTransGen (Step p) m m') (k : Nat) :
    m.toldBy k ⊆ m'.toldBy k := by
  obtain ⟨es, hes, -⟩ := emissions_of_steps h
  intro c hc
  rw [toldBy, hes, List.reverse_append, List.filter_append, List.map_append]
  exact List.mem_append_left _ hc

/-- A task that has come to its end in a snapshot has told so. -/
lemma Reached.hasCompleted_of_snapshot (hslots : Slots.ofLimit? limit = .ok world.slots)
    (hp : p.Linked) (h : Reached p interval world m) (hj : p.jobs[k]? = some j)
    {s : SystemState} {u : TaskState} (hs : s ∈ m.snapshots) (hu : s.get? j.task.id = some u)
    (hend : u.status.isTerminal = true) : HasCompleted (m.toldBy k) := by
  have hpending : ∀ es : List TaskEvent, (∀ e ∈ es, ∃ name, e.change = .registered name) →
      (SystemState.empty.fold es).get? j.task.id ≠ some u := by
    intro es hes hget
    obtain ⟨name, rfl⟩ := SystemState.eq_fresh_of_registered hes hget
    cases hend
  rcases h.mem_snapshots hs with rfl | hs
  · refine absurd hu (hpending _ fun e he => ?_)
    obtain ⟨x, hx, rfl⟩ := List.mem_map.1 he
    obtain ⟨y, -, rfl⟩ := List.mem_map.1 hx
    exact ⟨_, rfl⟩
  · obtain ⟨taken, marks, hpub⟩ := h.publishes
    rw [hpub.published_eq] at hs
    obtain ⟨n, -, rfl⟩ := List.mem_map.1 hs
    rcases h.of_events_prefix (List.take_prefix n m.events) with hreg | ⟨m₀, h₀, hsteps, hevents⟩
    · exact absurd hu (hpending _ hreg)
    · rw [Coordinator.stateAt, ← hevents] at hu
      obtain ⟨time, outcome, hmem⟩ := h₀.hasCompleted_of_isTerminal hslots hp hj hu hend
      exact ⟨time, outcome, toldBy_subset_of_steps hsteps k hmem⟩

/-- **A report is kept before anything shows the end of its task.** -/
theorem Trail.hasKept_of_showsEnd (hslots : Slots.ofLimit? limit = .ok world.slots)
    (h : Trail p interval world (m :: ms)) (hj : p.jobs[k]? = some j)
    (hlog : j.task.logFile = some path) (hend : m.ShowsEnd p k j) :
    HasKept k j path (m :: ms) := by
  obtain ⟨a, ha⟩ := h.reached.phaseOf?_of_job hj
  obtain ⟨cs, htold, hcs⟩ := h.reached.told hslots hj ha
  have hreleased : HasStarted (m.toldBy k) → a.isBroken = false → a.claim ≠ .held →
      HasCompleted (m.toldBy k) := by
    rw [htold, hasStarted_registration, hasCompleted_registration]
    exact hasCompleted_of_released hcs
  refine h.hasKept_of_isPast hslots hj hlog ha (.inr (.inr ?_))
  cases hend with
  | completed hend => exact hend
  | released hstarted hwhole hclaim =>
    rw [claimOf_of_phaseOf? ha] at hclaim
    exact hreleased hstarted (hwhole a ha) hclaim
  | signalled hstarted hwhole ho =>
    obtain ⟨o, ho⟩ := Option.isSome_iff_exists.1 ho
    obtain ⟨b, hb, hended⟩ := hasEnded_of_outcomeOf? ho
    obtain rfl : b = a := Option.some.inj (hb.symm.trans ha)
    refine hreleased hstarted (hwhole b ha) ?_
    cases b with
    | ended | crashed => simp [Phase.claim]
    | _ => cases hended
  | dependent hd hk hstarted =>
    exact h.reached.hasCompleted_of_succeeded hslots hj
      (h.reached.allSucceeded_of_hasStarted hslots hd hstarted k hk)
  | snapshot hp hs hu hterminal =>
    exact h.reached.hasCompleted_of_snapshot hslots hp hj hs hu hterminal

end Machine

end Taskflow
