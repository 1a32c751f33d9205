import Taskflow.Proofs.Run.Turn
set_option autoImplicit false

/-!
# How attempts can end

If all endings that the computations of a plan can come to have a property, then so have all endings
that a run meets, apart from attempts that are cut short by an interrupt; and the same for the
attempts of a single job. Two uses: a plan whose computations never break down has no job that
breaks down, and a run that is not interrupted has interrupted tasks only if a computation says so
itself.

## Main definitions

* `Script.AllEndings` — every ending of a script has a property.
* `Plan.Ends` — every ending of every computation of a plan has it.
* `Plan.NeverPanics` — no computation breaks down.
* `Job.Ends` — every ending that an attempt of a job can come to by itself has it.

## Main results

* `Machine.Reached.ends_of_job` — what a job meets are endings of its attempts, or cuts.
* `Machine.Reached.ends` — what a run meets are endings of computations, of commands, or cuts.
* `Machine.Reached.not_crashed` — where no computation breaks down, no job does.
-/

namespace Taskflow

/-! ### Endings of scripts -/

namespace Script

variable {ω ε ζ : Type}

/-- Every ending of a script has a property. -/
inductive AllEndings (P : ε → Prop) : Script ω ε → Prop
  | finish (e : ε) (h : P e) : AllEndings P (.finish e)
  | emit (o : ω) (next : Script ω ε) (h : AllEndings P next) : AllEndings P (.emit o next)
  | sleep (d : Duration) (next : Unit → Script ω ε) (h : ∀ u, AllEndings P (next u)) :
    AllEndings P (.sleep d next)
  | trigger (next : Script ω ε) (h : AllEndings P next) : AllEndings P (.trigger next)
  | note (n : Note) (next : Script ω ε) (h : AllEndings P next) : AllEndings P (.note n next)
  | files (update : FileTree → FileTree) (next : FileTree → Script ω ε)
    (h : ∀ t, AllEndings P (next t)) : AllEndings P (.files update next)

/-- What holds of all endings of a script holds if less is asked. -/
lemma AllEndings.mono {P Q : ε → Prop} (hPQ : ∀ e, P e → Q e) {s : Script ω ε}
    (h : s.AllEndings P) : s.AllEndings Q := by
  induction h with
  | finish e h => exact .finish e (hPQ e h)
  | emit o _ _ ih => exact .emit o _ ih
  | sleep d _ _ ih => exact .sleep d _ ih
  | trigger _ _ ih => exact .trigger _ ih
  | note n _ _ ih => exact .note n _ ih
  | files update _ _ ih => exact .files update _ ih

/-- What all values of a function have, all endings have that it gives. -/
lemma allEndings_map {P : ζ → Prop} {f : ε → ζ} (h : ∀ e, P (f e)) (s : Script ω ε) :
    (s.map f).AllEndings P := by
  induction s with
  | finish e => exact .finish _ (h e)
  | emit o next ih => exact .emit o _ ih
  | sleep d next ih => exact .sleep d _ ih
  | trigger next ih => exact .trigger _ ih
  | note n next ih => exact .note n _ ih
  | files update next ih => exact .files update _ ih

/-- Putting out a list of values first changes no ending. -/
lemma AllEndings.emitAll {P : ε → Prop} {s : Script ω ε} (h : s.AllEndings P) (outputs : List ω) :
    (Script.emitAll outputs s).AllEndings P := by
  induction outputs with
  | nil => exact h
  | cons o rest ih => exact .emit o _ ih

end Script

/-! ### Endings of a plan -/

/-- Every ending of every computation of a plan has a property. -/
def Plan.Ends (p : Plan) (P : Ending → Prop) : Prop :=
  ∀ (i : Nat) (j : Job), p.jobs[i]? = some j → ∀ behaviour, j.task.work = .computation behaviour →
    ∀ n, (behaviour n).AllEndings P

/-- No computation of a plan breaks down. -/
def Plan.NeverPanics (p : Plan) : Prop := p.Ends fun e => ∀ message, e ≠ .panic message

/-- An ending that commands can come to: success, or a failure that is no interrupt. -/
def Ending.IsPlain : Ending → Prop
  | .ok _ => True
  | .fail e => e.isInterrupted = false
  | .panic _ => False

/-- Every ending that an attempt of a job can come to by itself has a property, whatever machine it
begins in. -/
def Job.Ends (j : Job) (p : Plan) (P : Ending → Prop) : Prop :=
  ∀ (m : Machine) (n : UInt32),
    (∀ script, m.attemptScript p j.task n = .ok script → script.AllEndings P) ∧
      ∀ e, m.attemptScript p j.task n = .error e → P (.fail e)

/-- What the phase of a job says about the endings it has met or can still come to, if those of its
attempts have property `P`. -/
def Phase.Ends (P : Ending → Prop) (interrupted : Bool) : Phase → Prop
  | .attempting _ _ rest => ∀ u, (rest u).AllEndings P
  | .playing _ script => script.AllEndings P
  | .judging _ ending => P ending ∨ ending = .fail .interrupted ∧ interrupted = true
  | .reporting _ outcome | .completing _ outcome | .releasing _ outcome =>
    NodeOutcome.ofTask outcome = .interrupted → interrupted = true ∨ P (.fail .interrupted)
  | .settling .interrupted (some _) | .ended .interrupted (some _) =>
    interrupted = true ∨ P (.fail .interrupted)
  | .crashing message | .crashed message => P (.panic message)
  | _ => True

namespace Machine

variable {p : Plan} {j : Job} {a b : Phase} {i k : Nat} {m : Machine} {c : Option TaskChange}
  {P : Ending → Prop} {interval limit : Nat} {world : Machine}

/-- An outcome that is due to an interrupt only if there was one may follow the attempts. -/
lemma ends_concluded {interrupted : Bool} {t : TaskDefinition} {attempts : UInt32}
    {outcome : TaskOutcome} (h : NodeOutcome.ofTask outcome = .interrupted →
      interrupted = true ∨ P (.fail .interrupted)) :
    (concluded t attempts outcome).Ends P interrupted := by
  unfold concluded
  split <;> exact h

/-- An interrupted outcome comes from an interrupted attempt. -/
lemma eq_interrupted_of_ofTask {e : TaskError}
    (h : NodeOutcome.ofTask (.ofError e) = .interrupted) : e = .interrupted := by
  cases e with
  | interrupted => rfl
  | _ => cases h

/-- The script of an attempt has endings of the plan. -/
lemma allEndings_of_attemptScript (hp : p.Ends P) (hplain : ∀ e : Ending, e.IsPlain → P e)
    (hj : p.jobs[i]? = some j) {n : UInt32} {script : Attempt}
    (h : m.attemptScript p j.task n = .ok script) : script.AllEndings P := by
  unfold attemptScript at h
  split at h
  next behaviour hwork => cases h; exact hp i j hj behaviour hwork _
  next spec hwork =>
    split at h
    · cases h
      refine Script.allEndings_map (fun code => hplain _ ?_) _
      unfold endingOfExit
      split
      · trivial
      · rfl
    · cases h

/-- A command that cannot be started is no interrupt. -/
lemma isPlain_of_attemptScript {n : UInt32} {e : TaskError}
    (h : m.attemptScript p j.task n = .error e) : (Ending.fail e).IsPlain := by
  unfold attemptScript at h
  split at h
  · cases h
  · split at h <;> cases h
    rfl

/-- The attempts of a job have endings of the plan. -/
lemma ends_job (hp : p.Ends P) (hplain : ∀ e : Ending, e.IsPlain → P e)
    (hj : p.jobs[i]? = some j) : j.Ends p P :=
  fun _ _ => ⟨fun _ h => allEndings_of_attemptScript hp hplain hj h,
    fun _ h => hplain _ (isPlain_of_attemptScript h)⟩

/-- A move keeps to the endings of its job. -/
lemma Moves.ends {s : JobState} {v : Move} (hp : j.Ends p P) (h : Moves p j s m a v)
    (ha : a.Ends P m.interrupted) : v.phase.Ends P m.interrupted := by
  cases h with
  | withdraw hi | leave hi | refuse hi => exact .inl hi
  | begin n script h => exact fun _ => (hp m n).1 script h
  | fail n e h => exact .inl ((hp m n).2 e h)
  | resume n wake rest => exact ha ()
  | cancel n wake rest hi => exact .inr ⟨rfl, hi⟩
  | finish n ending => cases ha with | finish _ h => exact .inl h
  | emit n stream line next => cases ha with | emit _ _ h => exact h
  | doze n d next => cases ha with | sleep _ _ h => exact h ()
  | sleep n d next wake => cases ha with | sleep _ _ h => exact h
  | trigger n next => cases ha with | trigger _ h => exact h
  | note n k next => cases ha with | note _ _ h => exact h
  | files n update next => cases ha with | files _ _ h => exact h m.files
  | panic n message => exact ha.resolve_right fun h => by cases h.1
  | succeed n result => exact ends_concluded fun h => by cases h
  | exhaust n e _ =>
    refine ends_concluded fun h => ?_
    obtain rfl := eq_interrupted_of_ofTask h
    exact ha.symm.imp_left And.right
  | stop n wake hi => exact ends_concluded fun _ => .inl hi
  | keep attempts outcome => exact ha
  | complete attempts outcome => exact ha
  | release attempts outcome =>
    cases outcome with
    | success result => trivial
    | failure error command interrupted =>
      cases interrupted with
      | true => exact ha rfl
      | false => trivial
  | settle outcome result => cases outcome <;> cases result <;> exact ha
  | crash message => exact ha
  | _ => trivial

/-- A turn keeps to the endings of its job. -/
lemma Turn.ends (hp : j.Ends p P) (h : Turn p j m a c b) (ha : a.Ends P m.interrupted) :
    b.Ends P m.interrupted := by
  cases h with
  | stay => exact ha
  | grant => trivial
  | hear => trivial
  | move h => exact h.ends hp ha

/-- What was said of a run that is not interrupted holds when it is. -/
lemma ends_mono {before after : Bool} (h : before = true → after = true)
    (ha : a.Ends P before) : a.Ends P after := by
  cases a with
  | judging n ending => exact ha.imp_right (And.imp_right h)
  | reporting attempts outcome | completing attempts outcome | releasing attempts outcome =>
    exact fun ho => (ha ho).imp_left h
  | settling outcome result =>
    cases outcome <;> cases result <;> first | trivial | exact ha.imp_left h
  | ended outcome result =>
    cases outcome <;> cases result <;> first | trivial | exact ha.imp_left h
  | _ => exact ha

/-- **What a job meets are endings of its attempts, or cuts by an interrupt.** -/
theorem Reached.ends_of_job (hslots : Slots.ofLimit? limit = .ok world.slots)
    (hj : p.jobs[k]? = some j) (hp : j.Ends p P) (h : Reached p interval world m)
    (ha : m.phaseOf? k = some a) : a.Ends P m.interrupted := by
  refine h.induct_job hslots hj (I := fun m a _ => a.Ends P m.interrupted) ?_ ?_ ha
  · unfold firstPhase
    split <;> trivial
  · intro m m' a c b told hr hs hturn _ hends
    exact ends_mono hs.interrupted_of (hturn.ends hp hends)

/-- **What a run meets are endings of computations, of commands, or cuts by an interrupt.** -/
theorem Reached.ends (hslots : Slots.ofLimit? limit = .ok world.slots) (hp : p.Ends P)
    (hplain : ∀ e : Ending, e.IsPlain → P e) (h : Reached p interval world m)
    (ha : m.phaseOf? k = some a) : a.Ends P m.interrupted := by
  obtain ⟨j, hj⟩ := h.job_of_phaseOf? ha
  exact h.ends_of_job hslots hj (ends_job hp hplain hj) ha

/-- **Where no computation breaks down, no job does.** -/
theorem Reached.not_crashed (hslots : Slots.ofLimit? limit = .ok world.slots)
    (hp : p.NeverPanics) (h : Reached p interval world m) (ha : m.phaseOf? k = some a)
    (message : String) : a ≠ .crashing message ∧ a ≠ .crashed message := by
  have hends := h.ends hslots hp (fun e he message heq => by rw [heq] at he; exact he) ha
  constructor <;> rintro rfl <;> exact hends message rfl

end Machine

end Taskflow
