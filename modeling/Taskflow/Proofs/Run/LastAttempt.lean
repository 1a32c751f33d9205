import Taskflow.Proofs.Run.Endings
set_option autoImplicit false

/-!
# Where an outcome comes from

The outcome of a task is that of its last attempt: if the work of this attempt came to an ending by
itself, it is the outcome of that ending, and if not, the task was interrupted. It does not matter
which way led to the end; an attempt that has come to an ending is judged by it, and every attempt
after it has a greater number.

## Main definitions

* `Ending.outcome?` — what an ending means for a task.
* `Machine.Trail` — the machines on a way from the start of a run.
* `Machine.HasFinished` — an attempt has come to an ending by itself.
* `Phase.Sourced`, `Phase.Bound` — what a phase says about attempts that have, and what follows
  from one.
* `Phase.conclusion?` — the attempts of a job that are over, and their outcome.

## Main results

* `Machine.Trail.induct_job` — what every turn preserves holds on every trail.
* `Machine.Trail.sourced` — an outcome comes from an ending or from an interrupt.
* `Machine.Reached.bound` — an ending determines the outcome, unless there are more attempts.
* `Machine.Trail.outcome_of_conclusion` — both together, for a job whose attempts are over.
-/

namespace Taskflow

open Relation

/-- What an ending means for the task, if there is no other attempt. -/
def Ending.outcome? : Ending → Option TaskOutcome
  | .ok result => some (.success result)
  | .fail e => some (.ofError e)
  | .panic _ => none

namespace Phase

/-- Attempt `n` of a job that stands here has just come to ending `e`, and not by an interrupt. -/
def Finishes (n : UInt32) (e : Ending) (a : Phase) : Prop :=
  a = .playing n (.finish e) ∨ a = .judging n e ∧ e ≠ .fail .interrupted

/-- So many attempts with such an outcome come from an interrupt, or from an ending `e` of the last
attempt `n` for which `F n e`. -/
def ComesFrom (F : UInt32 → Ending → Prop) (attempts : UInt32) (outcome : TaskOutcome) : Prop :=
  ∃ n, attempts = n + 1 ∧
    (outcome = .ofError .interrupted ∨ ∃ e, F n e ∧ e.outcome? = some outcome)

/-- What a job in a phase is judged by, where `F n e` says that attempt `n` has come to ending
`e`. -/
def Sourced (F : UInt32 → Ending → Prop) : Phase → Prop
  | .judging n e => e = .fail .interrupted ∨ F n e
  | .reporting attempts outcome | .completing attempts outcome | .releasing attempts outcome =>
    ComesFrom F attempts outcome
  | .settling _ (some r) | .ended _ (some r) => ComesFrom F r.attempts r.outcome
  | _ => True

/-- So many attempts with such an outcome follow from ending `e` of attempt `n`: it was the last
one, or there was a later one. -/
def FollowsFrom (n : UInt32) (e : Ending) (attempts : UInt32) (outcome : TaskOutcome) : Prop :=
  attempts = n + 1 ∧ e.outcome? = some outcome ∨ ∃ k, attempts = k + 1 ∧ n.toNat < k.toNat

/-- Where a job can stand once its attempt `n` has come to ending `e`. -/
def Bound (n : UInt32) (e : Ending) : Phase → Prop
  | .playing k script => k = n ∧ script = .finish e ∨ n.toNat < k.toNat
  | .judging k ending => k = n ∧ ending = e ∨ n.toNat < k.toNat
  | .resting k _ | .beginning k | .attempting k .. => n.toNat < k.toNat
  | .reporting attempts outcome | .completing attempts outcome | .releasing attempts outcome =>
    FollowsFrom n e attempts outcome
  | .settling _ (some r) | .ended _ (some r) => FollowsFrom n e r.attempts r.outcome
  | .crashing _ | .crashed _ => True
  | _ => False

/-- So many attempts with such an outcome are over for a job that stands here. -/
def conclusion? : Phase → Option (UInt32 × TaskOutcome)
  | .reporting attempts outcome | .completing attempts outcome | .releasing attempts outcome =>
    some (attempts, outcome)
  | .settling _ (some r) | .ended _ (some r) => some (r.attempts, r.outcome)
  | _ => none

/-- What attempts have come to is an outcome that they lead to. -/
lemma Sourced.of_conclusion {F : UInt32 → Ending → Prop} {a : Phase} {attempts : UInt32}
    {outcome : TaskOutcome} (h : a.Sourced F) (ha : a.conclusion? = some (attempts, outcome)) :
    ComesFrom F attempts outcome := by
  cases a with
  | reporting | completing | releasing => cases ha; exact h
  | settling _ result | ended _ result =>
    cases result with
    | none => cases ha
    | some r => cases ha; exact h
  | _ => cases ha

/-- What follows an attempt is bound to how it ended. -/
lemma Bound.of_conclusion {n : UInt32} {e : Ending} {a : Phase} {attempts : UInt32}
    {outcome : TaskOutcome} (h : a.Bound n e) (ha : a.conclusion? = some (attempts, outcome)) :
    FollowsFrom n e attempts outcome := by
  cases a with
  | reporting | completing | releasing => cases ha; exact h
  | settling _ result | ended _ result =>
    cases result with
    | none => cases ha
    | some r => cases ha; exact h
  | _ => cases ha

/-- An outcome comes from more endings as well. -/
lemma ComesFrom.mono {F G : UInt32 → Ending → Prop} (hFG : ∀ n e, F n e → G n e)
    {attempts : UInt32} {outcome : TaskOutcome} (h : ComesFrom F attempts outcome) :
    ComesFrom G attempts outcome := by
  obtain ⟨n, hn, hint | ⟨e, he, ho⟩⟩ := h
  · exact ⟨n, hn, .inl hint⟩
  · exact ⟨n, hn, .inr ⟨e, hFG n e he, ho⟩⟩

/-- What attempts have come to stays when more of them do. -/
lemma Sourced.mono {F G : UInt32 → Ending → Prop} (hFG : ∀ n e, F n e → G n e) {a : Phase}
    (h : a.Sourced F) : a.Sourced G := by
  cases a with
  | judging n e => exact h.imp_right (hFG n e)
  | reporting | completing | releasing => exact ComesFrom.mono hFG h
  | settling outcome result | ended outcome result =>
    cases result with
    | none => trivial
    | some r => exact ComesFrom.mono hFG h
  | _ => trivial

end Phase

namespace Machine

variable {p : Plan} {j : Job} {a b : Phase} {k : Nat} {m m' : Machine} {ms : List Machine}
  {n : UInt32} {e : Ending} {F : UInt32 → Ending → Prop} {interval limit : Nat} {world : Machine}

/-- What follows the attempts of a job is their number and their outcome. -/
@[simp] lemma conclusion?_concluded (t : TaskDefinition) (attempts : UInt32)
    (outcome : TaskOutcome) :
    (concluded t attempts outcome).conclusion? = some (attempts, outcome) := by
  unfold concluded
  split <;> rfl

/-! ### Trails -/

/-- The machines that small steps come through from the start of a run, latest first. -/
inductive Trail (p : Plan) (interval : Nat) (world : Machine) : List Machine → Prop
  | start : Trail p interval world [start p interval world]
  | step {m m' : Machine} {ms : List Machine} (h : Trail p interval world (m :: ms))
    (hs : Step p m m') : Trail p interval world (m' :: m :: ms)

/-- In one of these machines, attempt `n` of job `k` has just come to ending `e` by itself. -/
def HasFinished (ms : List Machine) (k : Nat) (n : UInt32) (e : Ending) : Prop :=
  ∃ m ∈ ms, ∃ a, m.phaseOf? k = some a ∧ a.Finishes n e

/-- A trail leads to a reached machine. -/
lemma Trail.reached (h : Trail p interval world (m :: ms)) : Reached p interval world m := by
  generalize hl : m :: ms = l at h
  induction h generalizing m ms with
  | start => cases hl; exact .refl
  | step _ hs ih => cases hl; exact (ih rfl).tail hs

/-- There is a trail to every reached machine. -/
lemma Reached.exists_trail (h : Reached p interval world m) :
    ∃ ms, Trail p interval world (m :: ms) := by
  induction h with
  | refl => exact ⟨[], .start⟩
  | tail _ hs ih =>
    obtain ⟨ms, hms⟩ := ih
    exact ⟨_, hms.step hs⟩

/-- Steps lead on from every machine of a trail. -/
lemma Trail.steps_of_mem (h : Trail p interval world (m :: ms)) {m₁ : Machine}
    (hmem : m₁ ∈ m :: ms) : Reached p interval world m₁ ∧ ReflTransGen (Step p) m₁ m := by
  generalize hl : m :: ms = l at h hmem
  induction h generalizing m ms with
  | start =>
    cases hl
    obtain rfl := List.mem_singleton.1 hmem
    exact ⟨.refl, .refl⟩
  | step h hs ih =>
    cases hl
    rcases List.mem_cons.1 hmem with rfl | hmem
    · exact ⟨h.reached.tail hs, .refl⟩
    · obtain ⟨hr, hsteps⟩ := ih rfl hmem
      exact ⟨hr, hsteps.tail hs⟩

/-- **What every turn of a job preserves holds on every trail.** The property may speak of the
trail, the phase of the job, and what it has emitted. -/
theorem Trail.induct_job (hslots : Slots.ofLimit? limit = .ok world.slots)
    (h : Trail p interval world (m :: ms)) (hj : p.jobs[k]? = some j)
    {I : List Machine → Phase → List TaskChange → Prop}
    (hstart : I [Machine.start p interval world] (firstPhase j) j.registration)
    (hstep : ∀ m m' ms a c b, Trail p interval world (m :: ms) → Step p m m' → Turn p j m a c b →
      m.phaseOf? k = some a → m'.phaseOf? k = some b → I (m :: ms) a (m.toldBy k) →
        I (m' :: m :: ms) b (m.toldBy k ++ c.toList))
    (ha : m.phaseOf? k = some a) : I (m :: ms) a (m.toldBy k) := by
  generalize hl : m :: ms = l at h ⊢
  induction h generalizing m ms a with
  | start =>
    cases hl
    rw [start_phaseOf?, hj] at ha
    cases ha
    rw [toldBy_start hj]
    exact hstart
  | step h hs ih =>
    cases hl
    obtain ⟨a₁, ha₁⟩ := h.reached.phaseOf?_of_job hj
    obtain ⟨c, b, hturn, hb, htold⟩ := hs.turn (h.reached.balanced hslots) hj ha₁
    obtain rfl : b = a := Option.some.inj (hb.symm.trans ha)
    rw [htold]
    exact hstep _ _ _ _ _ _ h hs hturn ha₁ hb (ih ha₁ rfl)

/-! ### Outcomes have a source -/

/-- The phase that follows the attempts has an outcome that they have come to. -/
lemma sourced_concluded {t : TaskDefinition} {attempts : UInt32} {outcome : TaskOutcome}
    (h : Phase.ComesFrom F attempts outcome) : (concluded t attempts outcome).Sourced F := by
  unfold concluded
  split <;> exact h

/-- A move goes on with what its phase is judged by, if endings count as soon as they are there. -/
lemma Moves.sourced {s : JobState} {v : Move} (h : Moves p j s m a v) (ha : a.Sourced F)
    (hbefore : ∀ n e, a.Finishes n e → F n e) (hafter : ∀ n e, v.phase.Finishes n e → F n e) :
    v.phase.Sourced F := by
  -- a task that was not started counts as interrupted, after no attempt
  have hwithdrawn : Phase.ComesFrom F 0 (.ofError .interrupted) := ⟨0 - 1, by decide, .inl rfl⟩
  have hjudged : ∀ {n : UInt32} {e : Ending} {outcome : TaskOutcome},
      e = .fail .interrupted ∨ F n e → e.outcome? = some outcome →
        Phase.ComesFrom F (n + 1) outcome := by
    intro n e outcome he ho
    rcases he with rfl | he
    · exact ⟨n, rfl, .inl (Option.some.inj ho).symm⟩
    · exact ⟨n, rfl, .inr ⟨e, he, ho⟩⟩
  cases h with
  | withdraw | leave | refuse => exact hwithdrawn
  | fail n e h =>
    refine .inr (hafter n _ (.inr ⟨rfl, ?_⟩))
    rintro ⟨rfl⟩
    exact absurd (isPlain_of_attemptScript h) (by simp [Ending.IsPlain, TaskError.isInterrupted])
  | cancel => exact .inl rfl
  | finish n ending => exact .inr (hbefore n ending (.inl rfl))
  | succeed n result => exact sourced_concluded (hjudged ha rfl)
  | exhaust n e _ => exact sourced_concluded (hjudged ha rfl)
  | stop n wake h => exact sourced_concluded ⟨n, rfl, .inl rfl⟩
  | keep | complete | release => exact ha
  | settle outcome result => cases result <;> exact ha
  | _ => trivial

/-- A turn goes on with what its phase is judged by, if endings count as soon as they are there. -/
lemma Turn.sourced {c : Option TaskChange} (h : Turn p j m a c b) (ha : a.Sourced F)
    (hbefore : ∀ n e, a.Finishes n e → F n e) (hafter : ∀ n e, b.Finishes n e → F n e) :
    b.Sourced F := by
  cases h with
  | stay => exact ha
  | grant => trivial
  | hear => trivial
  | move h => exact h.sourced ha hbefore hafter

/-- **An outcome comes from an ending or from an interrupt.** -/
theorem Trail.sourced (hslots : Slots.ofLimit? limit = .ok world.slots)
    (h : Trail p interval world (m :: ms)) (ha : m.phaseOf? k = some a) :
    a.Sourced (HasFinished (m :: ms) k) := by
  obtain ⟨j, hj⟩ := h.reached.job_of_phaseOf? ha
  refine h.induct_job hslots hj (I := fun ms a _ => a.Sourced (HasFinished ms k)) ?_ ?_ ha
  · unfold firstPhase
    split <;> trivial
  · intro m₁ m' ms₁ a c b _ _ hturn ha hb hsourced
    have hlater : ∀ n e, HasFinished (m₁ :: ms₁) k n e → HasFinished (m' :: m₁ :: ms₁) k n e :=
      fun n e ⟨m₂, hmem, hfin⟩ => ⟨m₂, List.mem_cons_of_mem _ hmem, hfin⟩
    exact hturn.sourced (hsourced.mono hlater)
      (fun n e hfin => ⟨m₁, by simp, a, ha, hfin⟩)
      (fun n e hfin => ⟨m', by simp, b, hb, hfin⟩)

/-! ### Endings determine outcomes -/

/-- The phase that follows the attempts has an outcome that follows from the last one. -/
lemma bound_concluded {t : TaskDefinition} {attempts : UInt32} {outcome : TaskOutcome}
    (h : Phase.FollowsFrom n e attempts outcome) : (concluded t attempts outcome).Bound n e := by
  unfold concluded
  split <;> exact h

/-- A move leads on from an ending, to its outcome or to later attempts. -/
lemma Moves.bound {s : JobState} {v : Move} (h : Moves p j s m a v) (ha : a.Bound n e) :
    v.phase.Bound n e := by
  have hjudged : ∀ {k : UInt32} {ending : Ending} {outcome : TaskOutcome},
      k = n ∧ ending = e ∨ n.toNat < k.toNat → ending.outcome? = some outcome →
        Phase.FollowsFrom n e (k + 1) outcome := by
    rintro k ending outcome (⟨rfl, rfl⟩ | hlt) ho
    · exact .inl ⟨rfl, ho⟩
    · exact .inr ⟨k, rfl, hlt⟩
  -- a script that is not at its end belongs to a later attempt
  have hlater : ∀ {k : UInt32} {script : Attempt}, (∀ e, script ≠ .finish e) →
      k = n ∧ script = .finish e ∨ n.toNat < k.toNat → n.toNat < k.toNat :=
    fun hscript h => h.resolve_left fun h => hscript e h.2
  cases h with
  | begin => exact ha
  | fail => exact .inr ha
  | resume | cancel => exact .inr ha
  | finish k ending =>
    rcases ha with ⟨rfl, hfinish⟩ | hlt
    · cases hfinish
      exact .inl ⟨rfl, rfl⟩
    · exact .inr hlt
  | emit | trigger | note | files | doze => exact .inr (hlater (by simp) ha)
  | sleep => exact hlater (by simp) ha
  | panic => trivial
  | succeed k result => exact bound_concluded (hjudged ha rfl)
  | retry k e' record wake he hk =>
    obtain ⟨-, hsucc⟩ := RetryPolicy.toNat_succ_of_shouldRetry hk
    change n.toNat < (k + 1).toNat
    rcases ha with ⟨rfl, -⟩ | hlt <;> omega
  | exhaust k e' _ => exact bound_concluded (hjudged ha rfl)
  | wake => exact ha
  | stop k wake h => exact bound_concluded (.inr ⟨k, rfl, ha⟩)
  | keep | complete | release | crash => exact ha
  | settle outcome result => cases result <;> exact ha
  | _ => exact ha.elim

/-- A turn leads on from an ending, to its outcome or to later attempts. -/
lemma Turn.bound {c : Option TaskChange} (h : Turn p j m a c b) (ha : a.Bound n e) :
    b.Bound n e := by
  cases h with
  | stay => exact ha
  | grant => exact ha.elim
  | hear => exact ha.elim
  | move h => exact h.bound ha

/-- **An ending determines the outcome**, unless there are more attempts. -/
theorem Reached.bound (hslots : Slots.ofLimit? limit = .ok world.slots)
    (h : Reached p interval world m) (hsteps : ReflTransGen (Step p) m m')
    (ha : m.phaseOf? k = some a) (hfin : a.Finishes n e) :
    ∃ b, m'.phaseOf? k = some b ∧ b.Bound n e := by
  refine h.exists_phase_of_steps hslots hsteps (fun hturn => hturn.bound) ha ?_
  rcases hfin with rfl | ⟨rfl, -⟩
  · exact .inl ⟨rfl, rfl⟩
  · exact .inl ⟨rfl, rfl⟩

/-! ### Jobs whose attempts are over -/

/-- **The outcome of a job is that of its last attempt.** If on the way the work of this attempt
came to an ending by itself, the outcome is that of the ending; if not, the job was interrupted. -/
theorem Trail.outcome_of_conclusion (hslots : Slots.ofLimit? limit = .ok world.slots)
    (h : Trail p interval world (m :: ms)) (ha : m.phaseOf? k = some a) {attempts : UInt32}
    {outcome : TaskOutcome} (hover : a.conclusion? = some (attempts, outcome)) :
    ∃ n, attempts = n + 1 ∧
      (∀ e, HasFinished (m :: ms) k n e → e.outcome? = some outcome) ∧
      ((¬ ∃ e, HasFinished (m :: ms) k n e) → outcome = .ofError .interrupted) := by
  obtain ⟨n, hn, hsource⟩ := (h.sourced hslots ha).of_conclusion hover
  refine ⟨n, hn, fun e hfin => ?_, fun hnone => ?_⟩
  · obtain ⟨m₁, hmem, a₁, ha₁, hfin⟩ := hfin
    obtain ⟨h₁, hsteps⟩ := h.steps_of_mem hmem
    obtain ⟨b, hb, hbound⟩ := h₁.bound hslots hsteps ha₁ hfin
    obtain rfl : b = a := Option.some.inj (hb.symm.trans ha)
    rcases hbound.of_conclusion hover with ⟨-, ho⟩ | ⟨l, hl, hlt⟩
    · exact ho
    · have hsame : n = l := (UInt32.add_left_inj 1).1 (hn.symm.trans hl)
      rw [hsame] at hlt
      omega
  · rcases hsource with hint | ⟨e, he, -⟩
    · exact hint
    · exact absurd ⟨e, he⟩ hnone

/-- The same for a job that has ended. -/
theorem Trail.outcome_of_lastAttempt (hslots : Slots.ofLimit? limit = .ok world.slots)
    (h : Trail p interval world (m :: ms)) {outcome : NodeOutcome} {r : TaskResult}
    (ha : m.phaseOf? k = some (.ended outcome (some r))) : ∃ n, r.attempts = n + 1 ∧
      (∀ e, HasFinished (m :: ms) k n e → e.outcome? = some r.outcome) ∧
      ((¬ ∃ e, HasFinished (m :: ms) k n e) → r.outcome = .ofError .interrupted) :=
  h.outcome_of_conclusion hslots ha rfl

end Machine

end Taskflow
