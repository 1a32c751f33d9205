import Taskflow.Proofs.Run.Simulation
import Taskflow.Proofs.State.Timeless
set_option autoImplicit false

/-!
# Runs that differ by a span of time

Two machines are alike if the first one does everything that the second one does, a fixed span of
time later. They may find and leave different files, and what they write into logs and journals does
not matter; so their jobs do the same only if the work does not depend on the files. Whatever
happens to one of two machines that are alike, the same can happen to the other, and they stay
alike.

## Main definitions

* `Script.Alike`, `TaskDefinition.Steady` — scripts that do the same whatever files they find, and
  work that does.
* `Plan.Alike` — plans of the same jobs, with such work.
* `Phase.Alike`, `Machine.Alike` — phases and machines that differ by a span of time.

## Main results

* `Machine.Alike.nextMove?` — jobs of machines that are alike make moves that are alike.
* `Machine.Alike.step_later`, `Machine.Alike.step_earlier` — machines that are alike stay alike.
* `Machine.Alike.run_later`, `Machine.Alike.run_earlier` — whatever happens to one of them can
  happen to the other.

## Design

The relation holds phase by phase, and for each phase `Phase.Alike` says all: times differ by the
span, scripts are alike, and everything else is equal. A deed counts only by what others can see of
it, so that all deeds which touch nothing but files, logs and journals are alike.
-/

namespace Taskflow

/-! ### Work -/

namespace Script

variable {ω ε ζ : Type}

/-- Two scripts that do the same, whatever files they find and leave. -/
inductive Alike : Script ω ε → Script ω ε → Prop
  | finish (ending : ε) : Alike (.finish ending) (.finish ending)
  | emit (output : ω) {next next' : Script ω ε} (h : Alike next next') :
    Alike (.emit output next) (.emit output next')
  | sleep (time : Duration) {next next' : Unit → Script ω ε} (h : ∀ u, Alike (next u) (next' u)) :
    Alike (.sleep time next) (.sleep time next')
  | trigger {next next' : Script ω ε} (h : Alike next next') :
    Alike (.trigger next) (.trigger next')
  | note (n : Note) {next next' : Script ω ε} (h : Alike next next') :
    Alike (.note n next) (.note n next')
  | files (update update' : FileTree → FileTree) {next next' : FileTree → Script ω ε}
    (h : ∀ t t', Alike (next t) (next' t')) : Alike (.files update next) (.files update' next')

/-- Scripts that do the same do so with other endings. -/
lemma Alike.map (f : ε → ζ) {s s' : Script ω ε} (h : s.Alike s') : (s.map f).Alike (s'.map f) := by
  induction h with
  | finish ending => exact .finish _
  | emit output _ ih => exact .emit output ih
  | sleep time _ ih => exact .sleep time ih
  | trigger _ ih => exact .trigger ih
  | note n _ ih => exact .note n ih
  | files update update' _ ih => exact .files update update' ih

end Script

/-- Two results that are related, or the same failure. -/
inductive ResultsAlike {ε α : Type} (R : α → α → Prop) : Except ε α → Except ε α → Prop
  | ok {a a' : α} (h : R a a') : ResultsAlike R (.ok a) (.ok a')
  | error (e : ε) : ResultsAlike R (.error e) (.error e)

/-- What the work of a task does depends on the number of the attempt, and not on the files that it
finds. -/
def TaskDefinition.Steady (launch : Launcher) (t : TaskDefinition) : Prop :=
  match t.work with
  | .computation behaviour => ∀ n, (behaviour n).Alike (behaviour n)
  | .command spec => ∀ files files',
    ResultsAlike Script.Alike (launch spec files) (launch spec files')

/-- Plans of the same jobs, whose work is steady; their reports may name different runs. -/
structure Plan.Alike (p p' : Plan) : Prop where
  launch_eq : p.launch = p'.launch
  jobs_eq : p.jobs.map (fun j => (j.task, j.gate)) = p'.jobs.map fun j => (j.task, j.gate)
  steady : ∀ (i : Nat) (j : Job), p.jobs[i]? = some j → j.task.Steady p.launch

namespace Plan.Alike

variable {p p' : Plan} {i : Nat} {j : Job}

/-- At each place there is a job in both plans, with the same task and the same gate, or in none. -/
lemma getElem?_eq (h : p.Alike p') (i : Nat) :
    (p.jobs[i]?).map (fun j => (j.task, j.gate)) = (p'.jobs[i]?).map fun j => (j.task, j.gate) := by
  rw [← Array.getElem?_map, ← Array.getElem?_map, h.jobs_eq]

/-- The same job stands in both plans. -/
lemma exists_job (h : p.Alike p') (hj : p.jobs[i]? = some j) :
    ∃ j', p'.jobs[i]? = some j' ∧ j'.task = j.task ∧ j'.gate = j.gate := by
  have hget := h.getElem?_eq i
  rw [hj] at hget
  obtain ⟨j', hj', heq⟩ := Option.map_eq_some_iff.1 hget.symm
  obtain ⟨htask, hgate⟩ := Prod.mk.inj heq
  exact ⟨j', hj', htask, hgate⟩

/-- A place names the same task in both plans. -/
lemma idAt_eq (h : p.Alike p') (d : Nat) (t : TaskDefinition) : p.idAt d t = p'.idAt d t := by
  have hget := h.getElem?_eq d
  unfold idAt
  cases hj : p.jobs[d]? with
  | none =>
    rw [hj] at hget
    rw [Option.map_eq_none_iff.1 hget.symm]
  | some job =>
    obtain ⟨j', hj', htask, -⟩ := h.exists_job hj
    simp only [hj', htask]

end Plan.Alike

/-! ### Phases and deeds -/

namespace Phase

/-- Whether a phase holds neither a time nor a script. -/
def isPlain : Phase → Bool
  | .attempting .. | .playing .. | .resting .. => false
  | _ => true

/-- The same phase, but for times, which are later by `span` in the first, and for files. -/
inductive Alike (span : Nat) : Phase → Phase → Prop
  | attempting (n : UInt32) (wake : Nat) {rest rest' : Unit → Attempt}
    (h : (rest ()).Alike (rest' ())) :
    Alike span (.attempting n (wake + span) rest) (.attempting n wake rest')
  | playing (n : UInt32) {script script' : Attempt} (h : script.Alike script') :
    Alike span (.playing n script) (.playing n script')
  | resting (n : UInt32) (wake : Nat) : Alike span (.resting n (wake + span)) (.resting n wake)
  | plain {a : Phase} (h : a.isPlain = true) : Alike span a a

variable {span : Nat} {a b : Phase}

/-- A job has ended in both, or in none. -/
lemma Alike.hasEnded_eq (h : Alike span a b) : a.hasEnded = b.hasEnded := by
  cases h <;> rfl

/-- A job is about to keep its report in both, or in none. -/
lemma Alike.isReporting_eq (h : Alike span a b) : a.isReporting = b.isReporting := by
  cases h <;> rfl

/-- What follows the last attempt holds no time and no script. -/
lemma isPlain_concluded (t : TaskDefinition) (attempts : UInt32) (outcome : TaskOutcome) :
    (Machine.concluded t attempts outcome).isPlain = true := by
  unfold Machine.concluded
  split <;> rfl

end Phase

namespace Deed

/-- Whether a deed touches nothing but files, logs and journals. -/
def isHidden : Deed → Bool
  | .look | .forget | .jot _ | .store _ | .storePart _ _ => true
  | _ => false

/-- The same deed, as far as others can see it and but for times. -/
inductive Alike : Deed → Deed → Prop
  | hidden {d d' : Deed} (h : d.isHidden = true) (h' : d'.isHidden = true) : Alike d d'
  | tell {c c' : TaskChange} (record record' : Option LogRecord) (h : c.timeless = c'.timeless) :
    Alike (.tell c record) (.tell c' record')
  | same (d : Deed) : Alike d d

/-- What depends on the kind of a deed only, and not on hidden ones, is the same for deeds that are
alike. -/
lemma Alike.congr {α : Type} {f : Deed → α} {d d' : Deed} (h : d.Alike d')
    (hhidden : ∀ d : Deed, d.isHidden = true → f d = f .look)
    (htell : ∀ c record c' record', f (.tell c record) = f (.tell c' record')) : f d = f d' := by
  cases h with
  | hidden h h' => rw [hhidden d h, hhidden d' h']
  | tell record record' => exact htell _ _ _ _
  | same => rfl

/-- Deeds that are alike do the same to the interrupt. -/
lemma Alike.perform_interrupted {d d' : Deed} (h : d.Alike d') (m : Machine) (t : TaskDefinition)
    (i : Nat) : (m.perform t i d).interrupted = (m.perform t i d').interrupted :=
  h.congr (f := fun d => (m.perform t i d).interrupted)
    (fun d hd => by cases d <;> first | rfl | cases hd)
    fun _ _ _ _ => by rw [Machine.perform_interrupted, Machine.perform_interrupted]

/-- Deeds that are alike do the same to the slots. -/
lemma Alike.perform_slots {d d' : Deed} (h : d.Alike d') (m : Machine) (t : TaskDefinition)
    (i : Nat) : (m.perform t i d).slots = (m.perform t i d').slots :=
  h.congr (f := fun d => (m.perform t i d).slots)
    (fun d hd => by cases d <;> first | rfl | cases hd)
    fun _ _ _ _ => by rw [Machine.perform_slots, Machine.perform_slots]

/-- The same is told, but for times. -/
lemma Alike.told_eq {d d' : Deed} (h : d.Alike d') :
    d.told.map TaskChange.timeless = d'.told.map TaskChange.timeless := by
  have hnone : ∀ d : Deed, d.isHidden = true → d.told = none := by
    intro d hd
    cases d <;> first | rfl | cases hd
  cases h with
  | hidden h h' => rw [hnone d h, hnone d' h']
  | tell record record' h => exact congrArg some h
  | same => rfl

/-- Keeping a report is hidden. -/
lemma isHidden_keepReport (j : Job) (s : JobState) (outcome : TaskOutcome) (m : Machine) :
    (m.keepReport j s outcome).isHidden = true := by
  rcases Machine.keepReport_cases j s outcome m with h | ⟨files, h⟩ | ⟨files, record, h⟩ <;>
    rw [h] <;> rfl

end Deed

/-- The same move, but for times and for what others cannot see. -/
structure Move.Alike (span : Nat) (v v' : Move) : Prop where
  deed : v.deed.Alike v'.deed
  phase : v.phase.Alike span v'.phase

/-- A move to a phase without times and scripts is like itself. -/
lemma Move.alike_self {span : Nat} {v : Move} (h : v.phase.isPlain = true) : v.Alike span v :=
  ⟨.same _, .plain h⟩

namespace Machine

/-- Two machines of which the first does everything later, by `span`. -/
structure Alike (span : Nat) (m m' : Machine) : Prop where
  now_eq : m.now = m'.now + span
  interrupted_eq : m.interrupted = m'.interrupted
  slots_eq : m.slots = m'.slots
  phases : ∀ i, Option.Rel (Phase.Alike span) (m.phaseOf? i) (m'.phaseOf? i)
  coordinator : m.coordinator.Alike span m'.coordinator

variable {span : Nat} {p p' : Plan} {j j' : Job} {i : Nat} {choices : Choices} {m m' : Machine}
  {n : UInt32}

namespace Alike

/-! ### Moves -/

/-- A job has ended in the same way in both. -/
lemma outcomeOf?_eq (h : Alike span m m') (d : Nat) : m.outcomeOf? d = m'.outcomeOf? d := by
  have hphase := h.phases d
  unfold outcomeOf?
  generalize m.phaseOf? d = a, m'.phaseOf? d = b at hphase
  cases hphase with
  | none => rfl
  | some hab => cases hab <;> rfl

/-- A job that waits looks at nothing but the interrupt and at how others have ended. -/
lemma whenWaiting (h : Alike span m m') (unseen arrived : List Nat) :
    Option.Rel (Move.Alike span) (m.whenWaiting unseen arrived)
      (m'.whenWaiting unseen arrived) := by
  unfold Machine.whenWaiting
  rw [h.interrupted_eq]
  split
  · exact .some (Move.alike_self rfl)
  · split
    · split
      · exact .some (Move.alike_self rfl)
      · exact .none
    · rw [h.outcomeOf?_eq]
      split
      · exact .some (Move.alike_self rfl)
      · exact .some (Move.alike_self rfl)
      · exact .some (Move.alike_self rfl)
      · exact .some (Move.alike_self rfl)
      · exact .some (Move.alike_self rfl)

/-- The scripts of an attempt do the same. -/
lemma attemptScript (hp : p.Alike p') {t : TaskDefinition} (ht : t.Steady p.launch) (n : UInt32)
    (m m' : Machine) :
    ResultsAlike Script.Alike (m.attemptScript p t n) (m'.attemptScript p' t n) := by
  unfold TaskDefinition.Steady at ht
  unfold Machine.attemptScript
  rw [← hp.launch_eq]
  cases hwork : t.work with
  | computation behaviour =>
    simp only [hwork] at ht
    exact .ok (ht n.toNat)
  | command spec =>
    simp only [hwork] at ht
    have hlaunch := ht m.files m'.files
    simp only
    generalize p.launch spec m.files = r, p.launch spec m'.files = r' at hlaunch
    cases hlaunch with
    | ok hscript => exact .ok (hscript.map _)
    | error e => exact .error _

/-- An attempt begins in both, or its command fails to start in both. -/
lemma whenBeginning (h : Alike span m m') (hp : p.Alike p') {t : TaskDefinition}
    (ht : t.Steady p.launch) (n : UInt32) :
    (m.whenBeginning p t n).Alike span (m'.whenBeginning p' t n) := by
  have hscript := attemptScript hp ht n m m'
  unfold Machine.whenBeginning
  generalize m.attemptScript p t n = r, m'.attemptScript p' t n = r' at hscript
  cases hscript with
  | ok hscript => exact ⟨.same _, h.now_eq ▸ .attempting n m'.now hscript⟩
  | error e => exact Move.alike_self rfl

/-- A sleep is over in both. -/
lemma due_iff (h : Alike span m m') (preference : Preference) (wake : Nat) :
    (wake + span ≤ m.now ∧ ¬ (preference = .interrupt ∧ m.interrupted = true)) ↔
      (wake ≤ m'.now ∧ ¬ (preference = .interrupt ∧ m'.interrupted = true)) := by
  rw [h.now_eq, h.interrupted_eq]
  exact and_congr_left fun _ => by omega

/-- An attempt that sleeps goes on in both, is cut short in both, or still sleeps. -/
lemma whenAttempting (h : Alike span m m') (preference : Preference) (wake : Nat)
    {rest rest' : Unit → Attempt} (hrest : (rest ()).Alike (rest' ())) :
    Option.Rel (Move.Alike span) (m.whenAttempting n preference (wake + span) rest)
      (m'.whenAttempting n preference wake rest') := by
  unfold Machine.whenAttempting
  simp only [h.due_iff]
  rw [h.interrupted_eq]
  split
  · exact .some ⟨.same _, .playing n hrest⟩
  · split
    · exact .some (Move.alike_self rfl)
    · exact .none

/-- Scripts that are alike go on alike. -/
lemma whenPlaying (h : Alike span m m') {script script' : Attempt} (hs : script.Alike script') :
    (m.whenPlaying n script).Alike span (m'.whenPlaying n script') := by
  cases hs with
  | finish ending => exact Move.alike_self rfl
  | emit output hnext =>
    obtain ⟨stream, line⟩ := output
    exact ⟨.same _, .playing n hnext⟩
  | sleep time hnext =>
    simp only [Machine.whenPlaying]
    split
    · exact ⟨.same _, .playing n (hnext ())⟩
    · have hwake : m.now + delayMillis time = m'.now + delayMillis time + span := by
        rw [h.now_eq]
        omega
      exact ⟨.same _, hwake ▸ .attempting n _ (hnext ())⟩
  | trigger hnext => exact ⟨.same _, .playing n hnext⟩
  | note k hnext => exact ⟨.same _, .playing n hnext⟩
  | files update update' hnext =>
    exact ⟨.hidden rfl rfl, .playing n (hnext m.files m'.files)⟩

/-- An attempt is judged in the same way in both. -/
lemma whenJudging (h : Alike span m m') (t : TaskDefinition) (ending : Ending) :
    (m.whenJudging t n ending).Alike span (m'.whenJudging t n ending) := by
  cases ending with
  | panic message => exact Move.alike_self rfl
  | ok result => exact Move.alike_self (Phase.isPlain_concluded _ _ _)
  | fail e =>
    simp only [Machine.whenJudging]
    split
    · have hwake : ∀ delay, m.now + delay = m'.now + delay + span := fun delay => by
        rw [h.now_eq]
        omega
      exact ⟨.tell _ _ rfl, hwake _ ▸ .resting _ _⟩
    · exact Move.alike_self (Phase.isPlain_concluded _ _ _)

/-- A rest is over in both, is cut short in both, or goes on. -/
lemma whenResting (h : Alike span m m') (t : TaskDefinition) (preference : Preference)
    (wake : Nat) :
    Option.Rel (Move.Alike span) (m.whenResting t n preference (wake + span))
      (m'.whenResting t n preference wake) := by
  unfold Machine.whenResting
  simp only [h.due_iff]
  rw [h.interrupted_eq]
  split
  · exact .some (Move.alike_self rfl)
  · split
    · exact .some (Move.alike_self (Phase.isPlain_concluded _ _ _))
    · exact .none

/-- What a job does next from phases that are alike. -/
lemma moveOf? (h : Alike span m m') (hp : p.Alike p') {j j' : Job} (htask : j'.task = j.task)
    (ht : j.task.Steady p.launch) {s s' : JobState} (hs : s.phase.Alike span s'.phase) :
    Option.Rel (Move.Alike span) (m.moveOf? p j s choices) (m'.moveOf? p' j' s' choices) := by
  unfold Machine.moveOf?
  simp only [htask]
  generalize hb : s'.phase = b at hs
  generalize ha : s.phase = a at hs
  cases hs with
  | attempting n wake hrest => exact h.whenAttempting _ _ hrest
  | playing n hscript => exact .some (h.whenPlaying hscript)
  | resting n wake => exact h.whenResting _ _ _
  | plain hplain =>
    cases b with
    | attempting | playing | resting => cases hplain
    | waiting unseen arrived => exact h.whenWaiting unseen arrived
    | blocking d =>
      simp only [hp.idAt_eq]
      exact .some (Move.alike_self rfl)
    | requesting =>
      simp only [h.interrupted_eq]
      refine .some (Move.alike_self ?_)
      simp only
      split <;> rfl
    | asking =>
      simp only [Machine.whenAsking, h.slots_eq]
      refine .some (Move.alike_self ?_)
      split <;> rfl
    | queued =>
      simp only [h.interrupted_eq]
      split
      · exact .some (Move.alike_self rfl)
      · exact .none
    | granted =>
      simp only [h.interrupted_eq]
      refine .some (Move.alike_self ?_)
      split <;> rfl
    | starting => exact .some ⟨.tell _ _ rfl, .plain rfl⟩
    | beginning n => exact .some (h.whenBeginning hp ht n)
    | judging n ending => exact .some (h.whenJudging _ ending)
    | reporting attempts outcome =>
      exact .some ⟨.hidden (Deed.isHidden_keepReport _ _ _ _) (Deed.isHidden_keepReport _ _ _ _),
        .plain rfl⟩
    | completing attempts outcome => exact .some ⟨.tell _ _ rfl, .plain rfl⟩
    | releasing attempts outcome => exact .some (Move.alike_self rfl)
    | settling outcome result => exact .some (Move.alike_self rfl)
    | crashing message => exact .some (Move.alike_self rfl)
    | ended | crashed => exact .none

/-- **Jobs of machines that are alike make moves that are alike.** -/
theorem nextMove? (h : Alike span m m') (hp : p.Alike p') (i : Nat) (choices : Choices) :
    Option.Rel (Move.Alike span) (m.nextMove? p i choices) (m'.nextMove? p' i choices) := by
  have hphase := h.phases i
  have hjob := hp.getElem?_eq i
  unfold Machine.nextMove?
  unfold phaseOf? at hphase
  cases hj : p.jobs[i]? with
  | none =>
    rw [hj] at hjob
    rw [Option.map_eq_none_iff.1 hjob.symm]
    exact .none
  | some j =>
    obtain ⟨j', hj', htask, -⟩ := hp.exists_job hj
    rw [hj']
    cases hs : m.jobs[i]? with
    | none =>
      cases hs' : m'.jobs[i]? with
      | none => exact .none
      | some s' => simp [hs, hs'] at hphase
    | some s =>
      cases hs' : m'.jobs[i]? with
      | none => simp [hs, hs'] at hphase
      | some s' =>
        simp only [hs, hs', Option.map_some, Option.rel_some_some] at hphase
        exact h.moveOf? hp htask (hp.steady i j hj) hphase

/-- A job that can do nothing in the first machine can do nothing in the second one. -/
lemma nextMove?_eq_none (h : Alike span m m') (hp : p.Alike p')
    (hv : m.nextMove? p i choices = none) : m'.nextMove? p' i choices = none := by
  have hnext := h.nextMove? hp i choices
  rw [hv] at hnext
  cases hv' : m'.nextMove? p' i choices with
  | none => rfl
  | some v' => simp [hv'] at hnext

/-- A move in the first machine has one in the second that is alike. -/
lemma exists_nextMove? (h : Alike span m m') (hp : p.Alike p') {v : Move}
    (hv : m.nextMove? p i choices = some v) :
    ∃ v', m'.nextMove? p' i choices = some v' ∧ v.Alike span v' := by
  have hnext := h.nextMove? hp i choices
  rw [hv] at hnext
  cases hv' : m'.nextMove? p' i choices with
  | none => simp [hv'] at hnext
  | some v' => exact ⟨v', rfl, by rwa [hv', Option.rel_some_some] at hnext⟩

/-! ### Steps -/

/-- Deeds that are alike hand a slot to the same job. -/
lemma heir?_eq (h : Alike span m m') {d d' : Deed} (hd : d.Alike d') : m.heir? d = m'.heir? d' := by
  have hline : m.heir? d = m'.heir? d := by
    unfold heir?
    rw [h.slots_eq]
  refine hline.trans (hd.congr (fun d hhidden => ?_) fun _ _ _ _ => rfl)
  cases d <;> first | rfl | cases hhidden

/-- Moves that are alike leave machines alike. -/
lemma make (h : Alike span m m') (hp : p.Alike p') {v v' : Move}
    (hv : m.nextMove? p i choices = some v) (hv' : m'.nextMove? p' i choices = some v')
    (hvv : v.Alike span v') : Alike span (m.make p i v) (m'.make p' i v') := by
  obtain ⟨j, s, hj, -, -⟩ := moves_of_nextMove? hv
  obtain ⟨j', hj', htask, -⟩ := hp.exists_job hj
  refine
    { now_eq := ?_
      interrupted_eq := ?_
      slots_eq := ?_
      phases := fun k => ?_
      coordinator := ?_ }
  · rw [make_now hj, make_now hj', h.now_eq]
  · rw [make_interrupted hj, make_interrupted hj', h.interrupted_eq]
    exact perform_interrupted.symm.trans
      ((hvv.deed.perform_interrupted m' j.task i).trans perform_interrupted)
  · rw [make_slots hj, make_slots hj', h.slots_eq]
    exact perform_slots.symm.trans
      ((hvv.deed.perform_slots m' j.task i).trans perform_slots)
  · by_cases hk : i = k
    · subst hk
      rw [phaseOf?_make_self hv, phaseOf?_make_self hv']
      exact .some hvv.phase
    · rw [phaseOf?_make_of_ne hj hk, phaseOf?_make_of_ne hj' hk, h.heir?_eq hvv.deed]
      have hphase := h.phases k
      split
      · generalize m.phaseOf? k = a, m'.phaseOf? k = b at hphase
        cases hphase with
        | none => exact .none
        | some => exact .some (.plain rfl)
      · exact hphase
  · rw [make_coordinator hj, make_coordinator hj']
    have htold := hvv.deed.told_eq
    cases hd : v.deed.told with
    | none =>
      rw [hd] at htold
      rw [Option.map_eq_none_iff.1 htold.symm]
      exact h.coordinator
    | some c =>
      rw [hd] at htold
      obtain ⟨c', hc', heq⟩ := Option.map_eq_some_iff.1 htold.symm
      rw [hc']
      exact h.coordinator.send (by simp [TaskEvent.timeless, heq, htask])

/-- The queue is closed in both, or in none. -/
lemma closeIfEnded (h : Alike span m m') : Alike span m.closeIfEnded m'.closeIfEnded := by
  have hended : m.allEnded = m'.allEnded := by
    rw [Bool.eq_iff_iff, allEnded_iff, allEnded_iff]
    refine forall_congr' fun i => ?_
    have hphase := h.phases i
    generalize m.phaseOf? i = a, m'.phaseOf? i = b at hphase
    cases hphase with
    | none => simp
    | some hab => simp [hab.hasEnded_eq]
  unfold Machine.closeIfEnded
  rw [hended]
  split
  · exact { h with coordinator := h.coordinator.close }
  · exact h

/-- A move is made in both, or in none. -/
lemma move (h : Alike span m m') (hp : p.Alike p') (i : Nat) (choices : Choices) :
    Alike span (m.move p i choices) (m'.move p' i choices) := by
  unfold Machine.move
  cases hv : m.nextMove? p i choices with
  | none =>
    rw [h.nextMove?_eq_none hp hv]
    exact h
  | some v =>
    obtain ⟨v', hv', hvv⟩ := h.exists_nextMove? hp hv
    rw [hv']
    exact h.make hp hv hv' hvv

/-- A poll goes equally far in both. -/
lemma poll (h : Alike span m m') (hp : p.Alike p') (i : Nat) (choices : Choices) :
    Alike span (m.poll p i choices) (m'.poll p' i choices) := by
  induction m using Machine.poll.induct p i choices generalizing m' with
  | case1 m hv =>
    rw [poll_of_none hv, poll_of_none (h.nextMove?_eq_none hp hv)]
    exact h
  | case2 m v hv hr =>
    obtain ⟨v', hv', hvv⟩ := h.exists_nextMove? hp hv
    rw [poll_of_some hv, if_pos hr, poll_of_some hv', if_pos (hvv.phase.isReporting_eq ▸ hr)]
    exact h.make hp hv hv' hvv
  | case3 m v hv hr ih =>
    obtain ⟨v', hv', hvv⟩ := h.exists_nextMove? hp hv
    rw [poll_of_some hv, if_neg hr, poll_of_some hv', if_neg (hvv.phase.isReporting_eq ▸ hr)]
    exact ih (h.make hp hv hv' hvv)

/-- A job goes on to phases that are alike. -/
lemma setPhase (h : Alike span m m') (i : Nat) {a b : Phase} (hab : a.Alike span b) :
    Alike span (m.setPhase i a) (m'.setPhase i b) := by
  refine { h with phases := fun k => ?_ }
  have hphase := h.phases k
  rw [phaseOf?_setPhase, phaseOf?_setPhase]
  split
  · generalize m.phaseOf? k = x, m'.phaseOf? k = y at hphase
    cases hphase with
    | none => exact .none
    | some => exact .some hab
  · exact hphase

/-- A job hears from another one in both, or in none. -/
lemma arrive (h : Alike span m m') (i d : Nat) : Alike span (m.arrive i d) (m'.arrive i d) := by
  have hphase := h.phases i
  unfold Machine.arrive
  rw [h.outcomeOf?_eq d]
  generalize m.phaseOf? i = a, m'.phaseOf? i = b at hphase
  cases hphase with
  | none => exact h
  | some hab =>
    cases hab with
    | attempting | playing | resting => exact h
    | plain hplain =>
      rename_i a
      cases a with
      | waiting unseen arrived =>
        cases m'.outcomeOf? d with
        | none => exact h
        | some outcome =>
          simp only
          split
          · exact h.setPhase i (.plain rfl)
          · exact h
      | _ => exact h

end Alike

end Machine

/-! ### Runs -/

namespace Action

/-- The same action, later by `span`. -/
def later (span : Nat) : Action → Action
  | .advance time => .advance (time + span)
  | x => x

/-- The same action, earlier by `span`. -/
def earlier (span : Nat) : Action → Action
  | .advance time => .advance (time - span)
  | x => x

end Action

namespace Machine

variable {span : Nat} {p p' : Plan} {m m' : Machine}

namespace Alike

/-- The clock moves on. -/
lemma advance (h : Alike span m m') {time time' : Nat}
    (ht : max m.now time = max m'.now time' + span) :
    Alike span (m.step p (.advance time)) (m'.step p' (.advance time')) :=
  { h with now_eq := ht }

/-- Actions that do not move the clock. -/
lemma step_of_timeless (h : Alike span m m') (hp : p.Alike p') {x : Action}
    (hx : ∀ time, x ≠ .advance time) : Alike span (m.step p x) (m'.step p' x) := by
  cases x with
  | advance time => exact absurd rfl (hx time)
  | move i choices => exact (h.move hp i choices).closeIfEnded
  | poll i choices => exact (h.poll hp i choices).closeIfEnded
  | arrive i d => exact h.arrive i d
  | trigger => exact { h with interrupted_eq := rfl }
  | receive =>
    refine { h with coordinator := ?_ }
    simp only [step, h.now_eq]
    exact h.coordinator.receive _
  | tick =>
    refine { h with coordinator := ?_ }
    simp only [step, h.now_eq]
    exact h.coordinator.tick _

/-- **Machines that are alike stay alike**, if the first one does later what the second one does. -/
theorem step_later (h : Alike span m m') (hp : p.Alike p') (x : Action) :
    Alike span (m.step p (x.later span)) (m'.step p' x) := by
  cases x with
  | advance time =>
    refine h.advance ?_
    rw [h.now_eq]
    omega
  | _ => exact h.step_of_timeless hp nofun

/-- **Machines that are alike stay alike**, if the second one does earlier what the first one does.
-/
theorem step_earlier (h : Alike span m m') (hp : p.Alike p') (x : Action) :
    Alike span (m.step p x) (m'.step p' (x.earlier span)) := by
  cases x with
  | advance time =>
    refine h.advance ?_
    rw [h.now_eq]
    omega
  | _ => exact h.step_of_timeless hp nofun

/-- Whatever happens to the second machine can happen to the first, later. -/
theorem run_later (h : Alike span m m') (hp : p.Alike p') (actions : List Action) :
    Alike span (m.run p (actions.map (·.later span))) (m'.run p' actions) := by
  have hsim : Simulation p' p (fun x xs => xs = [x.later span]) fun m' m => Alike span m m' :=
    fun _ _ h x => ⟨_, rfl, h.step_later hp x⟩
  exact hsim.run_map h actions

/-- Whatever happens to the first machine can happen to the second, earlier. -/
theorem run_earlier (h : Alike span m m') (hp : p.Alike p') (actions : List Action) :
    Alike span (m.run p actions) (m'.run p' (actions.map (·.earlier span))) := by
  have hsim : Simulation p p' (fun x xs => xs = [x.earlier span]) (Alike span) :=
    fun _ _ h x => ⟨_, rfl, h.step_earlier hp x⟩
  exact hsim.run_map h actions

end Alike

end Machine

end Taskflow
