import Taskflow.Proofs.Run.Endings
import Taskflow.Proofs.Run.Sequential
set_option autoImplicit false

/-!
# Work that does the same in every run

What an attempt puts out and how it ends may hang on the files that it finds. If it does not, a job
of a run that is not interrupted tells step by step what its task tells when it is executed alone:
what it has told, followed by what its phase says is left, is the execution of the task.

## Main definitions

* `Script.Plays` — a script puts out given values and comes to a given ending on every path.
* `TaskDefinition.Performs` — the attempts of a task do what is given.
* `Phase.Continues` — what a job in a phase has still to tell.

## Main results

* `Machine.Reached.continues` — told and left together are the execution, unless the job is turned
  away before its start.
-/

namespace Taskflow

/-! ### Scripts and tasks -/

namespace Script

variable {ω ε : Type}

/-- A script puts out the values of a list and comes to an ending, whatever it finds in the files,
and does not interrupt the run. -/
inductive Plays : Script ω ε → List ω → ε → Prop
  | finish (e : ε) : Plays (.finish e) [] e
  | emit {next : Script ω ε} {os : List ω} {e : ε} (o : ω) (h : Plays next os e) :
    Plays (.emit o next) (o :: os) e
  | sleep {next : Unit → Script ω ε} {os : List ω} {e : ε} (d : Duration)
    (h : Plays (next ()) os e) : Plays (.sleep d next) os e
  | note {next : Script ω ε} {os : List ω} {e : ε} (n : Note) (h : Plays next os e) :
    Plays (.note n next) os e
  | files {next : FileTree → Script ω ε} {os : List ω} {e : ε} (update : FileTree → FileTree)
    (h : ∀ t, Plays (next t) os e) : Plays (.files update next) os e

/-- A script that comes to one ending comes to no other. -/
lemma Plays.allEndings {s : Script ω ε} {os : List ω} {e : ε} (h : s.Plays os e) :
    s.AllEndings (· = e) := by
  induction h with
  | finish e => exact .finish e rfl
  | emit o _ ih => exact .emit o _ ih
  | sleep d _ ih => exact .sleep d _ fun _ => ih
  | note n _ ih => exact .note n _ ih
  | files update _ ih => exact .files update _ ih

end Script

/-- The attempts of a task do what is given: those of a computation by themselves, those of a
command when it is launched, whatever is in the files. A command that cannot be started puts out
nothing and fails. -/
def TaskDefinition.Performs (t : TaskDefinition) (launch : Launcher)
    (perform : Nat → Performance) : Prop :=
  match t.work with
  | .computation behaviour => ∀ n, (behaviour n).Plays (perform n).lines (perform n).ending
  | .command spec => ∀ n files,
    match launch spec files with
    | .ok script =>
      (script.map (Machine.endingOfExit spec)).Plays (perform n).lines (perform n).ending
    | .error reason => perform n = ⟨[], .error (.notSpawned spec.program reason)⟩

/-! ### What is left to tell -/

namespace Phase

/-- Whether a job that stands here has not been handed over for execution, and will not be. -/
def isTurnedAway : Phase → Bool
  | .blocking _ | .settling _ none | .ended _ none => true
  | _ => false

/-- What a job of task `t` that stands in a phase has still to tell, up to its times, if it is not
turned away and the run is not interrupted. -/
def Continues (t : TaskDefinition) (perform : Nat → Performance) (rest : List TaskChange) :
    Phase → Prop
  | .waiting .. | .requesting | .asking | .queued | .granted | .starting =>
    rest = t.execution perform
  | .beginning n | .resting n _ =>
    n.toNat ≤ t.effectiveRetryPolicy.maxRetries.toNat ∧
      rest = t.changesFrom perform (t.effectiveRetryPolicy.maxRetries.toNat - n.toNat) n.toNat
  | .attempting n _ script => IsUnderway n (script ())
  | .playing n script => IsUnderway n script
  | .judging n ending =>
    n.toNat ≤ t.effectiveRetryPolicy.maxRetries.toNat ∧ ending = (perform n.toNat).ending ∧
      rest = t.changesAfter perform (t.effectiveRetryPolicy.maxRetries.toNat - n.toNat) n.toNat
  | .reporting _ outcome | .completing _ outcome => rest = [.completed .epoch outcome]
  | .releasing .. | .settling _ (some _) | .ended _ (some _) => rest = []
  | .blocking _ | .settling _ none | .ended _ none | .crashing _ | .crashed _ => False
where
  /-- attempt `n` goes on with a script -/
  IsUnderway (n : UInt32) (script : Attempt) : Prop :=
    n.toNat ≤ t.effectiveRetryPolicy.maxRetries.toNat ∧
      ∃ lines, script.Plays lines (perform n.toNat).ending ∧
        rest = Performance.outputs lines ++
          t.changesAfter perform (t.effectiveRetryPolicy.maxRetries.toNat - n.toNat) n.toNat

namespace Continues.IsUnderway

variable {t : TaskDefinition} {perform : Nat → Performance} {rest : List TaskChange} {n : UInt32}

/-- A script that puts out a line has told it, and goes on. -/
lemma after_emit {stream : Stream} {line : String} {next : Attempt}
    (h : IsUnderway t perform rest n (.emit (stream, line) next)) :
    ∃ rest', IsUnderway t perform rest' n next ∧ .output stream line :: rest' = rest := by
  obtain ⟨hn, _, hplays, rfl⟩ := h
  cases hplays with
  | emit _ h => exact ⟨_, ⟨hn, _, h, rfl⟩, rfl⟩

/-- A script that waits goes on when it is woken. -/
lemma after_sleep {d : Duration} {next : Unit → Attempt}
    (h : IsUnderway t perform rest n (.sleep d next)) : IsUnderway t perform rest n (next ()) := by
  obtain ⟨hn, _, hplays, rfl⟩ := h
  cases hplays with
  | sleep _ h => exact ⟨hn, _, h, rfl⟩

/-- A script that notes something goes on. -/
lemma after_note {k : Note} {next : Attempt} (h : IsUnderway t perform rest n (.note k next)) :
    IsUnderway t perform rest n next := by
  obtain ⟨hn, _, hplays, rfl⟩ := h
  cases hplays with
  | note _ h => exact ⟨hn, _, h, rfl⟩

/-- A script that uses files goes on whatever it finds. -/
lemma after_files {update : FileTree → FileTree} {next : FileTree → Attempt}
    (h : IsUnderway t perform rest n (.files update next)) (files : FileTree) :
    IsUnderway t perform rest n (next files) := by
  obtain ⟨hn, _, hplays, rfl⟩ := h
  cases hplays with
  | files _ h => exact ⟨hn, _, h files, rfl⟩

/-- A script that is under way does not interrupt the run. -/
lemma not_trigger {next : Attempt} : ¬ IsUnderway t perform rest n (.trigger next) := by
  rintro ⟨-, _, hplays, -⟩
  cases hplays

/-- A script that has ended has ended as is given. -/
lemma after_finish {ending : Ending} (h : IsUnderway t perform rest n (.finish ending)) :
    (Phase.judging n ending).Continues t perform rest := by
  obtain ⟨hn, _, hplays, rfl⟩ := h
  cases hplays
  exact ⟨hn, rfl, rfl⟩

end Continues.IsUnderway

end Phase

namespace Performance

variable {a : Performance}

/-- An attempt that ends well has its value as result. -/
lemma result_of_ending_ok {value : Json} (h : .ok value = a.ending) : a.result = .ok value := by
  unfold ending at h
  split at h
  next hresult => cases h; exact hresult
  next => cases h

/-- An attempt that fails has its error as result. -/
lemma result_of_ending_fail {e : TaskError} (h : .fail e = a.ending) : a.result = .error e := by
  unfold ending at h
  split at h
  next => cases h
  next hresult => cases h; exact hresult

/-- No attempt breaks down. -/
lemma ending_ne_panic (message : String) : .panic message ≠ a.ending := by
  unfold ending
  split <;> simp

end Performance

namespace Machine

variable {p : Plan} {j : Job} {a b : Phase} {k : Nat} {m : Machine} {c : Option TaskChange}
  {perform : Nat → Performance} {rest : List TaskChange} {interval limit : Nat} {world : Machine}

/-- An attempt begins as is given. -/
lemma plays_of_attemptScript (hperf : j.task.Performs p.launch perform) {n : UInt32}
    {script : Attempt} (h : m.attemptScript p j.task n = .ok script) :
    script.Plays (perform n.toNat).lines (perform n.toNat).ending := by
  unfold attemptScript at h
  unfold TaskDefinition.Performs at hperf
  split at h
  next hwork =>
    rw [hwork] at hperf
    cases h
    exact hperf n.toNat
  next spec hwork =>
    rw [hwork] at hperf
    have hperf := hperf n.toNat m.files
    split at h
    next hlaunch =>
      rw [hlaunch] at hperf
      cases h
      exact hperf
    next => cases h

/-- A command that cannot be started fails as is given. -/
lemma performance_of_attemptScript (hperf : j.task.Performs p.launch perform) {n : UInt32}
    {e : TaskError} (h : m.attemptScript p j.task n = .error e) :
    perform n.toNat = ⟨[], .error e⟩ := by
  unfold attemptScript at h
  unfold TaskDefinition.Performs at hperf
  split at h
  next => cases h
  next spec hwork =>
    rw [hwork] at hperf
    have hperf := hperf n.toNat m.files
    split at h
    next => cases h
    next hlaunch =>
      rw [hlaunch] at hperf
      cases h
      exact hperf

/-- Of the phase that follows the attempts, the end is still to be told. -/
lemma continues_concluded {t : TaskDefinition} {attempts : UInt32} {outcome : TaskOutcome}
    (h : rest = [.completed .epoch outcome]) :
    (concluded t attempts outcome).Continues t perform rest := by
  unfold concluded
  split <;> exact h

/-- Whoever is turned away stays so. -/
lemma Moves.isTurnedAway {s : JobState} {v : Move} (h : Moves p j s m a v)
    (ha : a.isTurnedAway = true) : v.phase.isTurnedAway = true := by
  cases h with
  | block => rfl
  | settle outcome result =>
    cases result with
    | none => rfl
    | some r => cases ha
  | _ => cases ha

/-- After an attempt that failed and is not followed by another, no retry is left. -/
lemma maxRetries_le_of_exhaust {r : RetryPolicy} {n : UInt32} {e : TaskError}
    (hplain : ∀ n, (perform n).result ≠ .error .interrupted)
    (hresult : (perform n.toNat).result = .error e)
    (h : e.isInterrupted = true ∨ r.shouldRetry n = false) : r.maxRetries.toNat ≤ n.toNat := by
  have hlast : r.shouldRetry n = false := by
    refine h.resolve_left fun he => hplain n.toNat ?_
    cases e with
    | interrupted => exact hresult
    | _ => cases he
  simp only [RetryPolicy.shouldRetry, decide_eq_false_iff_not, UInt32.lt_iff_toNat_lt] at hlast
  omega

/-- The failure of a command that cannot be started is judged like that of any other attempt. -/
lemma continues_unstarted (hperf : j.task.Performs p.launch perform) {n : UInt32} {e : TaskError}
    (h : m.attemptScript p j.task n = .error e)
    (ha : (Phase.beginning n).Continues j.task perform rest) :
    (Phase.judging n (.fail e)).Continues j.task perform rest := by
  obtain ⟨hn, rfl⟩ := ha
  have hperform := performance_of_attemptScript hperf h
  refine ⟨hn, ?_, ?_⟩
  · rw [hperform]
    rfl
  · rw [TaskDefinition.changesFrom, hperform]
    rfl

/-- After a failure that is followed by another attempt, the retry is told and the attempt is
left. -/
lemma continues_retried {t : TaskDefinition} {n : UInt32} {e : TaskError} (wake : Nat)
    (hretry : t.effectiveRetryPolicy.shouldRetry n = true)
    (ha : (Phase.judging n (.fail e)).Continues t perform rest) :
    ∃ rest', (Phase.resting (n + 1) wake).Continues t perform rest' ∧
      .retrying (n + 1) t.effectiveRetryPolicy.maxAttempts .epoch :: rest' = rest := by
  obtain ⟨hn, hending, rfl⟩ := ha
  have hresult := Performance.result_of_ending_fail hending
  obtain ⟨hlt, hsucc⟩ := RetryPolicy.toNat_succ_of_shouldRetry hretry
  obtain ⟨left, hleft⟩ : ∃ left, t.effectiveRetryPolicy.maxRetries.toNat - n.toNat = left + 1 :=
    ⟨_, (Nat.succ_pred (by omega)).symm⟩
  have hnext : t.effectiveRetryPolicy.maxRetries.toNat - (n + 1).toNat = left := by omega
  refine ⟨_, ⟨by omega, rfl⟩, ?_⟩
  rw [hnext, hleft, TaskDefinition.changesAfter_succ_of_error hresult, ← hsucc, UInt32.ofNat_toNat]

/-- After a failure that is not followed by another attempt, only the end is left. -/
lemma continues_exhausted {t : TaskDefinition} {n : UInt32} {e : TaskError}
    (hplain : ∀ n, (perform n).result ≠ .error .interrupted)
    (h : e.isInterrupted = true ∨ t.effectiveRetryPolicy.shouldRetry n = false)
    (ha : (Phase.judging n (.fail e)).Continues t perform rest) :
    (concluded t (n + 1) (.ofError e)).Continues t perform rest := by
  obtain ⟨hn, hending, rfl⟩ := ha
  have hresult := Performance.result_of_ending_fail hending
  have hleft : t.effectiveRetryPolicy.maxRetries.toNat - n.toNat = 0 :=
    Nat.sub_eq_zero_of_le (maxRetries_le_of_exhaust hplain hresult h)
  refine continues_concluded ?_
  rw [hleft, TaskDefinition.changesAfter_zero_of_error hresult]

/-- **A move tells the next of what is left**, unless the job is turned away. -/
lemma Moves.continues {s : JobState} {v : Move} (hperf : j.task.Performs p.launch perform)
    (hplain : ∀ n, (perform n).result ≠ .error .interrupted) (hm : m.interrupted = false)
    (h : Moves p j s m a v) (ha : a.Continues j.task perform rest) :
    v.phase.isTurnedAway = true ∨ ∃ rest', v.phase.Continues j.task perform rest' ∧
      v.deed.told.toList.map TaskChange.outline ++ rest' = rest := by
  cases h with
  | giveUp _ _ hi | withdraw hi | leave hi | refuse hi | cancel _ _ _ hi | stop _ _ hi =>
    exact absurd hi (by simp [hm])
  | hearFailure | hearInterrupt => exact .inl rfl
  | block d => exact ha.elim
  | crash message => exact ha.elim
  | start =>
    obtain rfl : rest = j.task.execution perform := ha
    exact .inr ⟨_, ⟨Nat.zero_le _, rfl⟩, rfl⟩
  | begin n script h =>
    obtain ⟨hn, rfl⟩ := ha
    exact .inr ⟨_, ⟨hn, _, plays_of_attemptScript hperf h, rfl⟩, rfl⟩
  | fail n e h => exact .inr ⟨_, continues_unstarted hperf h ha, rfl⟩
  | finish n ending => exact .inr ⟨_, ha.after_finish, rfl⟩
  | emit n stream line next => exact .inr ha.after_emit
  | doze n d next => exact .inr ⟨_, ha.after_sleep, rfl⟩
  | sleep n d next wake => exact .inr ⟨_, ha.after_sleep, rfl⟩
  | trigger n next => exact absurd ha Phase.Continues.IsUnderway.not_trigger
  | note n k next => exact .inr ⟨_, ha.after_note, rfl⟩
  | files n update next => exact .inr ⟨_, ha.after_files m.files, rfl⟩
  | panic n message =>
    obtain ⟨-, hending, -⟩ := ha
    exact absurd hending (Performance.ending_ne_panic message)
  | succeed n result =>
    obtain ⟨hn, hending, rfl⟩ := ha
    exact .inr ⟨_, continues_concluded rfl,
      (TaskDefinition.changesAfter_of_ok (Performance.result_of_ending_ok hending) _).symm⟩
  | retry n e record wake he hretry => exact .inr (continues_retried wake hretry ha)
  | exhaust n e h => exact .inr ⟨_, continues_exhausted hplain h ha, rfl⟩
  | keep attempts outcome =>
    rw [told_keepReport]
    exact .inr ⟨_, ha, rfl⟩
  | complete attempts outcome =>
    obtain rfl : rest = [.completed .epoch outcome] := ha
    exact .inr ⟨_, rfl, rfl⟩
  | settle outcome result =>
    cases result with
    | none => exact .inl rfl
    | some r => exact .inr ⟨_, ha, rfl⟩
  | _ => exact .inr ⟨_, ha, rfl⟩

/-- A turn tells the next of what is left. -/
lemma Turn.continues (hperf : j.task.Performs p.launch perform)
    (hplain : ∀ n, (perform n).result ≠ .error .interrupted) (hm : m.interrupted = false)
    (h : Turn p j m a c b) (ha : a.Continues j.task perform rest) :
    b.isTurnedAway = true ∨ ∃ rest', b.Continues j.task perform rest' ∧
      c.toList.map TaskChange.outline ++ rest' = rest := by
  cases h with
  | stay | grant | hear => exact .inr ⟨_, ha, rfl⟩
  | move h => exact h.continues hperf hplain hm ha

/-- **What a job has told and what is left to tell are the execution of its task**, unless it is
turned away, as long as the run is not interrupted. -/
theorem Reached.continues (hslots : Slots.ofLimit? limit = .ok world.slots)
    (h : Reached p interval world m) (hj : p.jobs[k]? = some j)
    (hperf : j.task.Performs p.launch perform)
    (hplain : ∀ n, (perform n).result ≠ .error .interrupted) (hm : m.interrupted = false)
    (ha : m.phaseOf? k = some a) :
    a.isTurnedAway = true ∨ ∃ cs rest, m.toldBy k = j.registration ++ cs ∧
      a.Continues j.task perform rest ∧
        cs.map TaskChange.outline ++ rest = j.task.execution perform := by
  refine h.induct_job hslots hj (I := fun m a told => m.interrupted = false →
    a.isTurnedAway = true ∨ ∃ cs rest, told = j.registration ++ cs ∧
      a.Continues j.task perform rest ∧
        cs.map TaskChange.outline ++ rest = j.task.execution perform) ?_ ?_ ha hm
  · intro _
    refine .inr ⟨[], _, (List.append_nil _).symm, ?_, rfl⟩
    unfold firstPhase
    split <;> rfl
  · rintro m m' a c b told - hs hturn - hinv hm'
    have hm := not_interrupted_of_steps (.single hs) hm'
    rcases hinv hm with haway | ⟨cs, rest, rfl, hrest, hexec⟩
    · refine .inl ?_
      cases hturn with
      | stay => exact haway
      | grant => cases haway
      | hear => cases haway
      | move h => exact h.isTurnedAway haway
    · refine (hturn.continues hperf hplain hm hrest).imp_right ?_
      rintro ⟨rest', hrest', happend⟩
      refine ⟨cs ++ c.toList, rest', List.append_assoc _ _ _, hrest', ?_⟩
      rw [List.map_append, List.append_assoc, happend, hexec]

end Machine

end Taskflow
