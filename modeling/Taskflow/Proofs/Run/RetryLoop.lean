import Mathlib.Algebra.Order.BigOperators.Group.List
import Mathlib.Algebra.Order.Ring.Nat
import Taskflow.Proofs.RetryPolicy.Backoff
import Taskflow.Proofs.Run.Attempts
import Taskflow.Proofs.Run.Liveness
import Taskflow.Proofs.Run.Performing
set_option autoImplicit false

/-!
# The attempts of a task

A task is tried until an attempt succeeds or no retry is left. If it is known what its attempts do
and the run is not interrupted, this is all there is to a job: the number of its last attempt is
known beforehand, and with it everything that the job tells, how long it rests, and its result.

## Main definitions

* `TaskDefinition.lastAttempt` — the first attempt that succeeds, or the last one that is allowed.
* `Machine.rests` — how long a job has rested before which attempts.
* `Phase.HasTried` — what a phase says about the attempts and rests that are over.

## Main results

* `TaskDefinition.execution_eq_lastAttempt` — an execution, attempt by attempt.
* `Machine.Trail.hasTried` — on every trail, what has been tried is as the phase of the job says.
* `Machine.total_rests` — all rests together are the backoff of the policy.
* `Machine.retry_loop` — which attempts are made, what is told of them, and the result.
-/

namespace Taskflow

open Relation TaskChange

/-! ### The last attempt -/

namespace Performance

/-- The outcome of a task whose last attempt this is. -/
def outcome (a : Performance) : TaskOutcome :=
  match a.result with
  | .ok value => .success value
  | .error e => .ofError e

/-- What a value leads to. -/
lemma outcome_of_ok {a : Performance} {value : Json} (h : a.result = .ok value) :
    a.outcome = .success value := by
  rw [outcome, h]

/-- What an error leads to. -/
lemma outcome_of_error {a : Performance} {e : TaskError} (h : a.result = .error e) :
    a.outcome = .ofError e := by
  rw [outcome, h]

end Performance

namespace TaskDefinition

variable (t : TaskDefinition) (perform : Nat → Performance)

/-- The first attempt that succeeds, or the last one that the policy allows. -/
def lastAttempt : Nat :=
  (List.range t.effectiveRetryPolicy.maxRetries.toNat).findIdx fun n => (perform n).result.isOk

/-- What is told of attempt `n + 1`: that it follows, and its lines. -/
def retryChanges (n : Nat) : List TaskChange :=
  .retrying (.ofNat (n + 1)) t.effectiveRetryPolicy.maxAttempts .epoch ::
    Performance.outputs (perform (n + 1)).lines

variable {t perform}

/-- The last attempt is no later than the policy allows. -/
lemma lastAttempt_le : t.lastAttempt perform ≤ t.effectiveRetryPolicy.maxRetries.toNat :=
  List.findIdx_le_length.trans_eq List.length_range

/-- Every attempt before the last one fails. -/
lemma error_of_lt_lastAttempt {n : Nat} (h : n < t.lastAttempt perform) :
    ∃ e, (perform n).result = .error e := by
  have hnot := List.not_of_lt_findIdx h
  rw [List.getElem_range] at hnot
  cases hresult : (perform n).result with
  | ok value => simp [hresult, Except.isOk, Except.toBool] at hnot
  | error e => exact ⟨e, rfl⟩

/-- What is searched for among the first numbers holds of the number that is found. -/
lemma of_findIdx_range_lt {q : Nat → Bool} {limit : Nat}
    (h : (List.range limit).findIdx q < limit) : q ((List.range limit).findIdx q) = true := by
  have hfound := List.findIdx_getElem (w := h.trans_eq List.length_range.symm)
  rwa [List.getElem_range] at hfound

/-- The last attempt succeeds if there could be another. -/
lemma ok_lastAttempt (h : t.lastAttempt perform < t.effectiveRetryPolicy.maxRetries.toNat) :
    ∃ value, (perform (t.lastAttempt perform)).result = .ok value := by
  have hfound : (perform (t.lastAttempt perform)).result.isOk = true := of_findIdx_range_lt h
  cases hresult : (perform (t.lastAttempt perform)).result with
  | ok value => exact ⟨value, rfl⟩
  | error e => simp [hresult, Except.isOk, Except.toBool] at hfound

/-- An attempt that succeeds is the last one, if it is none of those that come after it. -/
lemma eq_lastAttempt_of_ok {n : Nat} {value : Json} (hn : n ≤ t.lastAttempt perform)
    (h : (perform n).result = .ok value) : n = t.lastAttempt perform := by
  refine (Nat.eq_or_lt_of_le hn).resolve_right fun hlt => ?_
  obtain ⟨e, he⟩ := error_of_lt_lastAttempt hlt
  rw [h] at he
  cases he

/-- An attempt that fails is not the last one, if the policy allows another. -/
lemma lt_lastAttempt_of_error {n : Nat} {e : TaskError} (hn : n ≤ t.lastAttempt perform)
    (hleft : n < t.effectiveRetryPolicy.maxRetries.toNat) (h : (perform n).result = .error e) :
    n < t.lastAttempt perform := by
  refine (Nat.eq_or_lt_of_le hn).resolve_left fun heq => ?_
  obtain ⟨value, hvalue⟩ := ok_lastAttempt (heq ▸ hleft)
  rw [← heq, h] at hvalue
  cases hvalue

/-- From attempt `n` on, `count` attempts fail, and then one succeeds or no retry is left. -/
lemma changesAfter_eq_flatMap {count : Nat} : ∀ {left n : Nat}, count ≤ left →
    (∀ i < count, ∃ e, (perform (n + i)).result = .error e) →
    (count = left ∨ ∃ value, (perform (n + count)).result = .ok value) →
      t.changesAfter perform left n =
        (List.range count).flatMap (fun i => t.retryChanges perform (n + i)) ++
          [.completed .epoch (perform (n + count)).outcome] := by
  induction count with
  | zero =>
    intro left n _ _ hlast
    rw [Nat.add_zero] at hlast ⊢
    cases hresult : (perform n).result with
    | ok value => simp [changesAfter_of_ok hresult, Performance.outcome_of_ok hresult]
    | error e =>
      obtain rfl : 0 = left := hlast.resolve_right fun ⟨value, h⟩ => by
        rw [hresult] at h
        cases h
      simp [changesAfter_zero_of_error hresult, Performance.outcome_of_error hresult]
  | succ count ih =>
    intro left n hle hfails hlast
    obtain ⟨left, rfl⟩ : ∃ l, left = l + 1 := ⟨left - 1, by omega⟩
    obtain ⟨e, he⟩ : ∃ e, (perform n).result = .error e := hfails 0 (Nat.succ_pos count)
    have hshift : ∀ i, n + 1 + i = n + (i + 1) := fun i => by omega
    have hrest := @ih left (n + 1) (by omega)
      (fun i hi => hshift i ▸ hfails (i + 1) (by omega))
      (hshift count ▸ hlast.imp_left Nat.succ.inj)
    simp only [hshift] at hrest
    rw [changesAfter_succ_of_error he, changesFrom, hrest, List.range_succ_eq_map,
      List.flatMap_cons, List.flatMap_map]
    simp [retryChanges]

/-- **An execution, attempt by attempt.** -/
theorem execution_eq_lastAttempt : t.execution perform =
    .started .epoch :: (Performance.outputs (perform 0).lines ++
      (List.range (t.lastAttempt perform)).flatMap (t.retryChanges perform) ++
        [.completed .epoch (perform (t.lastAttempt perform)).outcome]) := by
  have hafter : t.changesAfter perform t.effectiveRetryPolicy.maxRetries.toNat 0 = _ :=
    changesAfter_eq_flatMap lastAttempt_le
      (fun i hi => (Nat.zero_add i).symm ▸ error_of_lt_lastAttempt hi)
      ((Nat.zero_add (t.lastAttempt perform)).symm ▸
        (Nat.eq_or_lt_of_le lastAttempt_le).imp_right ok_lastAttempt)
  simp only [Nat.zero_add] at hafter
  rw [execution, changesFrom, hafter, List.append_assoc]

/-- Every attempt but the first is announced. -/
lemma retrying_mem_execution {n : Nat} (h : n < t.lastAttempt perform) :
    .retrying (.ofNat (n + 1)) t.effectiveRetryPolicy.maxAttempts .epoch ∈ t.execution perform := by
  rw [execution_eq_lastAttempt]
  refine List.mem_cons_of_mem _ (List.mem_append_left _ (List.mem_append_right _ ?_))
  exact List.mem_flatMap.2 ⟨n, List.mem_range.2 h, List.mem_cons_self⟩

/-- If every attempt fails, the last one is the last that the policy allows. -/
lemma lastAttempt_of_errors (h : ∀ n, ∃ e, (perform n).result = .error e) :
    t.lastAttempt perform = t.effectiveRetryPolicy.maxRetries.toNat := by
  refine (Nat.eq_or_lt_of_le lastAttempt_le).resolve_right fun hlt => ?_
  obtain ⟨value, hvalue⟩ := ok_lastAttempt hlt
  obtain ⟨e, he⟩ := h (t.lastAttempt perform)
  rw [hvalue] at he
  cases he

end TaskDefinition

/-! ### Rests -/

/-- The attempt before which a rest begins with a passage, and how long it takes. -/
def Passage.rest? (x : Passage) : Option (UInt32 × Nat) :=
  match x.source, x.target with
  | .judging .., .resting n wake => some (n, wake - x.machine.now)
  | _, _ => none

namespace Phase

/-- How many attempts of a job that stands here are over. -/
def tried : Phase → Nat
  | .beginning n | .attempting n .. | .playing n _ | .resting n _ => n.toNat
  | .judging n _ => n.toNat + 1
  | .reporting attempts _ | .completing attempts _ | .releasing attempts _ => attempts.toNat
  | .settling _ (some r) | .ended _ (some r) => r.attempts.toNat
  | _ => 0

/-- How many rests of a job that stands here have begun. -/
def rested : Phase → Nat
  | .beginning n | .attempting n .. | .playing n _ | .judging n _ | .resting n _ => n.toNat
  | .reporting attempts _ | .completing attempts _ | .releasing attempts _ => attempts.toNat - 1
  | .settling _ (some r) | .ended _ (some r) => r.attempts.toNat - 1
  | _ => 0

/-- A job that stands here makes no attempt after number `last`, and if its attempts are over, this
was the last one, and had such an outcome. -/
def IsUpTo (last : Nat) (outcome : TaskOutcome) : Phase → Prop
  | .beginning n | .attempting n .. | .playing n _ | .judging n _ | .resting n _ => n.toNat ≤ last
  | .reporting attempts o | .completing attempts o | .releasing attempts o =>
    attempts.toNat = last + 1 ∧ o = outcome
  | .settling _ (some r) | .ended _ (some r) => r.attempts.toNat = last + 1 ∧ r.outcome = outcome
  | _ => True

/-- What a phase says about the attempts and rests of a job of task `t` that are over, if the
attempts do what is given and `F n e` says that attempt `n` has come to ending `e`. -/
structure HasTried (t : TaskDefinition) (perform : Nat → Performance) (F : UInt32 → Ending → Prop)
    (rests : List (UInt32 × Nat)) (a : Phase) : Prop where
  isUpTo : a.IsUpTo (t.lastAttempt perform) (perform (t.lastAttempt perform)).outcome
  finished : ∀ i < a.tried, F (.ofNat i) (perform i).ending
  rests_eq : rests = (List.range a.rested).map fun i =>
    (.ofNat (i + 1), Machine.delayMillis (t.effectiveRetryPolicy.delayFor i))

end Phase

namespace Machine

variable {p : Plan} {j : Job} {a b : Phase} {k : Nat} {m m' : Machine} {ms : List Machine}
  {c : Option TaskChange} {perform : Nat → Performance} {F G : UInt32 → Ending → Prop}
  {rs : List (UInt32 × Nat)} {interval limit : Nat} {world : Machine}

/-- Before which attempts job `k` has rested on a trail, and how long. -/
def rests (k : Nat) (ms : List Machine) : List (UInt32 × Nat) :=
  ((passages k ms).filterMap Passage.rest?).reverse

/-- A step may begin a rest. -/
lemma rests_cons (ha : m.phaseOf? k = some a) (hb : m'.phaseOf? k = some b) :
    rests k (m' :: m :: ms) = rests k (m :: ms) ++ (Passage.mk m a b).rest?.toList := by
  rw [rests, passages_cons ha hb, List.filterMap_cons, rests]
  cases (Passage.mk m a b).rest? <;> simp

/-! ### What has been tried -/

/-- One more attempt has ended. -/
lemma finished_succ {n : UInt32} (h : ∀ i < n.toNat, F (.ofNat i) (perform i).ending)
    (hn : F n (perform n.toNat).ending) :
    ∀ i < n.toNat + 1, F (.ofNat i) (perform i).ending := by
  intro i hi
  rcases Nat.lt_succ_iff_lt_or_eq.1 hi with hi | rfl
  · exact h i hi
  · rwa [UInt32.ofNat_toNat]

/-- After the last attempt a job is over, with its outcome. -/
lemma hasTried_concluded {t : TaskDefinition} {n : UInt32} {e : Ending} {outcome : TaskOutcome}
    (hmax : t.effectiveRetryPolicy.maxRetries.toNat < RetryPolicy.maxWord)
    (hlast : n.toNat = t.lastAttempt perform) (houtcome : outcome = (perform n.toNat).outcome)
    (h : (Phase.judging n e).HasTried t perform F rs) :
    (concluded t (n + 1) outcome).HasTried t perform F
      (rs ++ (Passage.mk m (.judging n e) (concluded t (n + 1) outcome)).rest?.toList) := by
  have hsucc : (n + 1).toNat = n.toNat + 1 :=
    RetryPolicy.toNat_add_one ((hlast.trans_le TaskDefinition.lastAttempt_le).trans_lt hmax)
  have hpred : n.toNat = (n + 1).toNat - 1 := by omega
  obtain ⟨-, hfinished, hrests⟩ := h
  have hfinished : ∀ i < n.toNat + 1, F (.ofNat i) (perform i).ending := hfinished
  have hrests : rs = (List.range n.toNat).map fun i =>
    (.ofNat (i + 1), delayMillis (t.effectiveRetryPolicy.delayFor i)) := hrests
  rw [← hsucc] at hfinished
  rw [hpred] at hrests
  rw [hlast] at houtcome hsucc
  unfold concluded
  split <;> exact ⟨⟨hsucc, houtcome⟩, hfinished, (List.append_nil rs).trans hrests⟩

/-- After an attempt that fails and is not the last one, a job rests as long as the policy says. -/
lemma hasTried_retried {t : TaskDefinition} {n : UInt32} {e : TaskError} {wake : Nat}
    (hretry : t.effectiveRetryPolicy.shouldRetry n = true)
    (hresult : (perform n.toNat).result = .error e)
    (hwake : wake = m.now + delayMillis (t.effectiveRetryPolicy.delayFor n.toNat))
    (h : (Phase.judging n (.fail e)).HasTried t perform F rs) :
    (Phase.resting (n + 1) wake).HasTried t perform F
      (rs ++ (Passage.mk m (.judging n (.fail e)) (.resting (n + 1) wake)).rest?.toList) := by
  obtain ⟨hupto, hfinished, hrests⟩ := h
  obtain ⟨hlt, hsucc⟩ := RetryPolicy.toNat_succ_of_shouldRetry hretry
  have hn : n.toNat < t.lastAttempt perform :=
    TaskDefinition.lt_lastAttempt_of_error hupto hlt hresult
  have hrest : (Passage.mk m (.judging n (.fail e)) (.resting (n + 1) wake)).rest?.toList =
      [(n + 1, delayMillis (t.effectiveRetryPolicy.delayFor n.toNat))] := by
    simp [Passage.rest?, hwake]
  refine ⟨hsucc.trans_le hn, fun i hi => hfinished i (lt_of_lt_of_eq hi hsucc), ?_⟩
  rw [hrest, hrests, Phase.rested, Phase.rested, hsucc, List.range_succ]
  simp

/-- An attempt whose command cannot be started has ended as is given. -/
lemma finished_unstarted {n : UInt32} {e : TaskError} (hperf : j.task.Performs p.launch perform)
    (h : m.attemptScript p j.task n = .error e)
    (hafter : ∀ n' e', (Phase.judging n (.fail e)).Finishes n' e' → F n' e') :
    F n (perform n.toNat).ending := by
  rw [performance_of_attemptScript hperf h]
  refine hafter n _ (.inr ⟨rfl, ?_⟩)
  rintro ⟨rfl⟩
  exact absurd (isPlain_of_attemptScript h) (by simp [Ending.IsPlain, TaskError.isInterrupted])

/-- A move goes on as is given, if endings count as soon as they are there. -/
lemma Moves.hasTried {s : JobState} {v : Move} (hmax : j.retries < RetryPolicy.maxWord)
    (hperf : j.task.Performs p.launch perform)
    (hplain : ∀ n, (perform n).result ≠ .error .interrupted) (hm : m.interrupted = false)
    (h : Moves p j s m a v)
    (hcont : a.isTurnedAway = true ∨ ∃ rest, a.Continues j.task perform rest)
    (ha : a.HasTried j.task perform F rs) (hbefore : ∀ n e, a.Finishes n e → F n e)
    (hafter : ∀ n e, v.phase.Finishes n e → F n e) :
    v.phase.HasTried j.task perform F (rs ++ (Passage.mk m a v.phase).rest?.toList) := by
  obtain ⟨hupto, hfinished, hrests⟩ := id ha
  cases h with
  | giveUp _ _ hi | withdraw hi | leave hi | refuse hi | cancel _ _ _ hi | stop _ _ hi =>
    exact absurd hi (by simp [hm])
  | start => exact ⟨Nat.zero_le _, hfinished, (List.append_nil rs).trans hrests⟩
  | fail n e h =>
    exact ⟨hupto, finished_succ hfinished (finished_unstarted hperf h hafter),
      (List.append_nil rs).trans hrests⟩
  | finish n ending =>
    obtain ⟨rest, hn, lines, hplays, -⟩ := hcont.resolve_left (by simp [Phase.isTurnedAway])
    cases hplays
    exact ⟨hupto, finished_succ hfinished (hbefore n _ (.inl rfl)),
      (List.append_nil rs).trans hrests⟩
  | panic n message =>
    obtain ⟨rest, -, hending, -⟩ := hcont.resolve_left (by simp [Phase.isTurnedAway])
    exact absurd hending (Performance.ending_ne_panic message)
  | succeed n result =>
    obtain ⟨rest, -, hending, -⟩ := hcont.resolve_left (by simp [Phase.isTurnedAway])
    have hresult := Performance.result_of_ending_ok hending
    exact hasTried_concluded hmax (TaskDefinition.eq_lastAttempt_of_ok hupto hresult)
      (Performance.outcome_of_ok hresult).symm ha
  | retry n e record wake he hretry hwake =>
    obtain ⟨rest, -, hending, -⟩ := hcont.resolve_left (by simp [Phase.isTurnedAway])
    exact hasTried_retried hretry (Performance.result_of_ending_fail hending) hwake ha
  | exhaust n e h =>
    obtain ⟨rest, -, hending, -⟩ := hcont.resolve_left (by simp [Phase.isTurnedAway])
    have hresult := Performance.result_of_ending_fail hending
    have hn : n.toNat = j.task.lastAttempt perform :=
      Nat.le_antisymm hupto
        (TaskDefinition.lastAttempt_le.trans (maxRetries_le_of_exhaust hplain hresult h))
    exact hasTried_concluded hmax hn (Performance.outcome_of_error hresult).symm ha
  | settle outcome result =>
    cases result <;> exact ⟨hupto, hfinished, (List.append_nil rs).trans hrests⟩
  | _ => exact ⟨hupto, hfinished, (List.append_nil rs).trans hrests⟩

/-- **On every trail that is not interrupted, what has been tried is as the phase of the job
says.** -/
theorem Trail.hasTried (hslots : Slots.ofLimit? limit = .ok world.slots)
    (h : Trail p interval world (m :: ms)) (hj : p.jobs[k]? = some j)
    (hmax : j.retries < RetryPolicy.maxWord) (hperf : j.task.Performs p.launch perform)
    (hplain : ∀ n, (perform n).result ≠ .error .interrupted) (hm : m.interrupted = false)
    (ha : m.phaseOf? k = some a) :
    a.HasTried j.task perform (HasFinished (m :: ms) k) (rests k (m :: ms)) := by
  refine h.induct_job hslots hj (I := fun ms a _ => (∀ m ∈ ms.head?, m.interrupted = false) →
    a.HasTried j.task perform (HasFinished ms k) (rests k ms)) ?_ ?_ ha (by simpa using hm)
  · intro _
    unfold firstPhase
    split <;> exact ⟨trivial, fun i hi => (Nat.not_lt_zero i hi).elim, rfl⟩
  · intro m₁ m' ms₁ a c b htrail hs hturn ha hb hinv hm'
    have hm : m₁.interrupted = false :=
      not_interrupted_of_steps (.single hs) (by simpa using hm')
    obtain ⟨hupto, hfinished, hrests⟩ := hinv (by simpa using hm)
    have hlater : ∀ n e, HasFinished (m₁ :: ms₁) k n e → HasFinished (m' :: m₁ :: ms₁) k n e :=
      fun n e ⟨m₂, hmem, hfin⟩ => ⟨m₂, List.mem_cons_of_mem _ hmem, hfin⟩
    have hbefore : a.HasTried j.task perform (HasFinished (m' :: m₁ :: ms₁) k)
        (rests k (m₁ :: ms₁)) := ⟨hupto, fun i hi => hlater _ _ (hfinished i hi), hrests⟩
    rw [rests_cons ha hb]
    cases hturn with
    | stay =>
      have hnone : (Passage.mk m₁ a a).rest? = none := by cases a <;> rfl
      rw [hnone]
      simpa using hbefore
    | grant | hear =>
      exact ⟨trivial, fun i hi => (Nat.not_lt_zero i hi).elim, (List.append_nil _).trans hrests⟩
    | move hmove =>
      refine hmove.hasTried hmax hperf hplain hm ?_ hbefore
        (fun n e hfin => ⟨m₁, by simp, a, ha, hfin⟩) (fun n e hfin => ⟨m', by simp, _, hb, hfin⟩)
      exact (htrail.reached.continues hslots hj hperf hplain hm ha).imp_right
        fun ⟨_, rest, _, hrest, _⟩ => ⟨rest, hrest⟩

/-- In a run that is not interrupted, a rest ends when its time has come, and the next attempt is to
begin. -/
lemma Trail.rest_ends (hslots : Slots.ofLimit? limit = .ok world.slots)
    (h : Trail p interval world (m :: ms)) (hj : p.jobs[k]? = some j) (hm : m.interrupted = false)
    {x : Passage} (hx : x ∈ passages k (m :: ms)) {n : UInt32} {wake : Nat}
    (hsource : x.source = .resting n wake) :
    x.target = .resting n wake ∨ x.target = .beginning n ∧ wake ≤ x.machine.now := by
  obtain ⟨⟨c, hturn⟩, hsteps⟩ := h.turn_of_mem hslots hj hx
  rw [hsource] at hturn
  generalize x.target = b at hturn
  cases hturn with
  | stay => exact .inl rfl
  | move hmove =>
    cases hmove with
    | wake _ _ hwake => exact .inr ⟨rfl, hwake⟩
    | stop _ _ hi =>
      rw [not_interrupted_of_steps hsteps hm] at hi
      cases hi

/-! ### All rests together -/

/-- A wait takes its time, rounded up to whole milliseconds, as long as the clock can add it. -/
lemma delayMillis_bounds {d : Duration} (h : d.nanos / 1000000000 < maxDelaySeconds) :
    d.nanos ≤ delayMillis d * 1000000 ∧ delayMillis d * 1000000 ≤ d.nanos + 999999 ∧
      (1000000 ∣ d.nanos → delayMillis d * 1000000 = d.nanos) := by
  rw [delayMillis, if_neg (Nat.not_le.2 h)]
  omega

/-- Waits one after the other take their times, each rounded up. -/
lemma sum_delayMillis_bounds {ds : List Duration}
    (h : (ds.map (·.nanos)).sum / 1000000000 < maxDelaySeconds) :
    (ds.map (·.nanos)).sum ≤ (ds.map delayMillis).sum * 1000000 ∧
      (ds.map delayMillis).sum * 1000000 ≤ (ds.map (·.nanos)).sum + ds.length * 999999 ∧
      ((∀ d ∈ ds, 1000000 ∣ d.nanos) →
        (ds.map delayMillis).sum * 1000000 = (ds.map (·.nanos)).sum) := by
  induction ds with
  | nil => simp
  | cons d ds ih =>
    simp only [List.map_cons, List.sum_cons, List.length_cons, List.forall_mem_cons] at h ⊢
    obtain ⟨hlow, hhigh, hexact⟩ :=
      ih (Nat.lt_of_le_of_lt (Nat.div_le_div_right (Nat.le_add_left _ _)) h)
    obtain ⟨hlow', hhigh', hexact'⟩ :=
      delayMillis_bounds (Nat.lt_of_le_of_lt (Nat.div_le_div_right (Nat.le_add_right _ _)) h)
    rw [Nat.add_mul, Nat.succ_mul]
    refine ⟨Nat.add_le_add hlow' hlow, ?_, fun hwhole => ?_⟩
    · calc delayMillis d * 1000000 + (ds.map delayMillis).sum * 1000000
          ≤ (d.nanos + 999999) + ((ds.map (·.nanos)).sum + ds.length * 999999) :=
            Nat.add_le_add hhigh' hhigh
        _ = d.nanos + (ds.map (·.nanos)).sum + (ds.length * 999999 + 999999) := by ac_rfl
    · rw [hexact' hwhole.1, hexact hwhole.2]

/-- The backoff of the first attempts is the sum of their waits, or the longest duration. -/
lemma nanos_backoffUpTo_eq_sum (r : RetryPolicy) (n : Nat) : (r.backoffUpTo n).nanos =
    min (((List.range n).map r.delayFor).map (·.nanos)).sum Duration.maxNanos := by
  induction n with
  | zero => exact (Nat.zero_min _).symm
  | succ n ih =>
    have hadd : (r.backoffUpTo (n + 1)).nanos =
        min ((r.backoffUpTo n).nanos + (r.delayFor n).nanos) Duration.maxNanos := by
      rw [RetryPolicy.backoffUpTo_succ, Duration.nanos_add]
    have hsum : (((List.range (n + 1)).map r.delayFor).map (·.nanos)).sum =
        (((List.range n).map r.delayFor).map (·.nanos)).sum + (r.delayFor n).nanos := by
      simp [List.range_succ]
    generalize Duration.maxNanos = top at ih hadd ⊢
    omega

/-- **All rests together are the backoff of the policy**, each rounded up to whole milliseconds, as
long as the clock can add it. -/
theorem total_rests {r : RetryPolicy} {n : Nat}
    (h : (r.backoffUpTo n).nanos / 1000000000 < maxDelaySeconds) :
    let slept := ((List.range n).map fun i => delayMillis (r.delayFor i)).sum
    (r.backoffUpTo n).nanos ≤ slept * 1000000 ∧
      slept * 1000000 ≤ (r.backoffUpTo n).nanos + n * 999999 ∧
      (1000000 ∣ r.backoffBase.nanos → slept * 1000000 = (r.backoffUpTo n).nanos) := by
  have hsum := nanos_backoffUpTo_eq_sum r n
  have hrange : maxDelaySeconds < Duration.maxNanos / 1000000000 := by decide
  have hopen : (r.backoffUpTo n).nanos = (((List.range n).map r.delayFor).map (·.nanos)).sum := by
    omega
  have hbounds := sum_delayMillis_bounds (hopen ▸ h)
  rw [← hopen, List.map_map, List.length_map, List.length_range] at hbounds
  refine ⟨hbounds.1, hbounds.2.1, fun hwhole => hbounds.2.2 ?_⟩
  intro d hd
  obtain ⟨i, -, rfl⟩ := List.mem_map.1 hd
  -- the wait is shorter than the longest duration, so it is a multiple of the base
  have hle : (r.delayFor i).nanos ≤ (((List.range n).map r.delayFor).map (·.nanos)).sum :=
    List.le_sum_of_mem (List.mem_map_of_mem hd)
  have hmul : (r.delayFor i).nanos =
      min (r.backoffBase.nanos * RetryPolicy.factor i) Duration.maxNanos :=
    Duration.nanos_mul _ _
  rw [hmul, Nat.min_eq_left (by omega)]
  exact Dvd.dvd.mul_right hwhole _

/-! ### Results -/

section Performs

variable (hslots : Slots.ofLimit? limit = .ok world.slots) (hj : p.jobs[k]? = some j)
  (hmax : j.retries < RetryPolicy.maxWord) (hperf : j.task.Performs p.launch perform)
  (hplain : ∀ n, (perform n).result ≠ .error .interrupted)
include hslots hj hmax hperf hplain

/-- **An attempt that is to begin** is one of those up to the last; all those before it have begun
and come to their endings, and no other has begun. -/
theorem Trail.of_beginning (h : Trail p interval world (m :: ms)) (hm : m.interrupted = false)
    {n : UInt32} (ha : m.phaseOf? k = some (.beginning n)) :
    n.toNat ≤ j.task.lastAttempt perform ∧ begun k (m :: ms) = firstNumbers n.toNat ∧
      ∀ i < n.toNat, HasFinished (m :: ms) k (.ofNat i) (perform i).ending := by
  have htried := h.hasTried hslots hj hmax hperf hplain hm ha
  obtain ⟨cs, -, -, -, hbegun, -⟩ := h.hasBegun hslots hj ha
  exact ⟨htried.isUpTo, hbegun, htried.finished⟩

/-- **The result of a job**, with the attempts that have begun, the rests between them, and all that
the job has told. -/
theorem Trail.of_resultOf? (h : Trail p interval world (m :: ms)) (hm : m.interrupted = false)
    {result : TaskResult} (hresult : m.resultOf? k = some result) :
    let r := j.task.effectiveRetryPolicy
    let last := j.task.lastAttempt perform
    result.attempts.toNat = last + 1 ∧ result.outcome = (perform last).outcome ∧
    begun k (m :: ms) = firstNumbers (last + 1) ∧
    rests k (m :: ms) =
      (List.range last).map (fun i => (.ofNat (i + 1), delayMillis (r.delayFor i))) ∧
    ∃ cs, m.toldBy k = j.registration ++ cs ∧ cs.map TaskChange.outline =
      .started .epoch :: (Performance.outputs (perform 0).lines ++
        (List.range last).flatMap (fun i =>
          .retrying (.ofNat (i + 1)) (.ofNat (r.maxRetries.toNat + 1)) .epoch ::
            Performance.outputs (perform (i + 1)).lines) ++
        [.completed .epoch (perform last).outcome]) := by
  intro r last
  obtain ⟨outcome, ha⟩ := exists_ended_of_resultOf? hresult
  obtain ⟨⟨hattempts, houtcome⟩, -, hrests⟩ := h.hasTried hslots hj hmax hperf hplain hm ha
  have hattempts : result.attempts.toNat = last + 1 := hattempts
  have hrests : rests k (m :: ms) = (List.range (result.attempts.toNat - 1)).map _ := hrests
  rw [hattempts, Nat.add_sub_cancel] at hrests
  refine ⟨hattempts, houtcome, ?_, hrests, ?_⟩
  · obtain ⟨cs, -, -, ⟨-, hzero, -⟩ | ⟨-, n, hn, hn', ⟨-, hbegun⟩ | ⟨hcut, -⟩⟩⟩ :=
      h.hasBegun hslots hj ha
    · rw [hzero] at hattempts
      cases hattempts
    · rw [hn', RetryPolicy.toNat_ofNat_succ (hn.trans_lt hmax)] at hattempts
      rw [hbegun, hattempts]
    · rw [h.interrupted_of_hasCutRest hslots hj hcut] at hm
      cases hm
  · obtain ⟨cs, rest, htold, hrest, hexec⟩ :=
      (h.reached.continues hslots hj hperf hplain hm ha).resolve_left (by simp [Phase.isTurnedAway])
    obtain rfl : rest = [] := hrest
    have hchanges : j.task.retryChanges perform = fun i =>
        .retrying (.ofNat (i + 1)) (.ofNat (r.maxRetries.toNat + 1)) .epoch ::
          Performance.outputs (perform (i + 1)).lines := by
      funext i
      rw [TaskDefinition.retryChanges, RetryPolicy.maxAttempts_eq_ofNat hmax]
    refine ⟨cs, htold, ?_⟩
    rw [← hchanges, ← TaskDefinition.execution_eq_lastAttempt, ← hexec, List.append_nil]

omit hmax in
/-- A job that has asked for a slot and has ended has a result. -/
lemma Reached.exists_resultOf? (h : Reached p interval world m) (hm : m.interrupted = false)
    (ha : m.phaseOf? k = some a) (hasked : a.hasAsked = true) (hended : a.hasEnded = true) :
    ∃ result, m.resultOf? k = some result := by
  rw [resultOf?, ha]
  have hcont := h.continues hslots hj hperf hplain hm ha
  cases a with
  | ended outcome result =>
    cases result with
    | none => cases hasked
    | some r => exact ⟨r, rfl⟩
  | crashed message =>
    obtain ⟨-, -, -, ⟨⟩, -⟩ := hcont.resolve_left (by simp [Phase.isTurnedAway])
  | _ => cases hended

end Performs

/-- A job that waits for nothing but a slot has asked for one from the beginning. -/
lemma Reached.hasAsked_of_gate (hslots : Slots.ofLimit? limit = .ok world.slots)
    (h : Reached p interval world m) (hj : p.jobs[k]? = some j) (hgate : j.gate = none)
    (ha : m.phaseOf? k = some a) : a.hasAsked = true := by
  have hfirst : (start p interval world).phaseOf? k = some .requesting := by
    rw [start_phaseOf?, hj, Option.map_some, firstPhase, hgate]
  obtain ⟨b, hb, hasked⟩ := Reached.exists_phase_of_steps hslots .refl h
    (I := fun b => b.hasAsked = true) (fun hturn => hturn.hasAsked) hfirst rfl
  obtain rfl := Option.some.inj (ha.symm.trans hb)
  exact hasked

/-- **The retry loop.** For every plan, every limit and every job with fewer than `2 ^ 32 - 1`
retries whose attempts do what is given, none of them with an interrupt as its result, let `last` be
the first attempt that succeeds, or the last one that the policy allows. In every machine of a run
that is not interrupted:
* An attempt that is to begin is one of `0, …, last`. Those before it have begun, each once and in
  their order, and come to their endings, so that no two overlap.
* A rest ends when its time has come, and then the next attempt is to begin.
* A result counts `last + 1` attempts and has the outcome of attempt `last`. Just these attempts
  have begun. Before attempt `i + 1` the job has rested as long as the policy says for attempt `i`;
  if no retry is left, it has rested for the total backoff of the policy, up to the rounding of each
  rest to whole milliseconds. And the job has told its start, the lines of attempt `0`, for each
  further attempt that it is retried and its lines, and the outcome, once.

A job that has a slot comes to such a result if it gets its turn again and again and the clock does
not stop. So does a job that has asked for a slot, unless it stands in the line for ever; and one
that waits for nothing but a slot has asked from the beginning.

**Proof sketch.** Along a trail the phase of a job tells how many attempts have begun, how they have
ended and which rests were taken (`Trail.hasTried`). As attempts do what is given, attempt `i` is
judged by its result, so the job goes on to the next one exactly below `last`. The rests are those
of the policy, and each is rounded up to whole milliseconds (`total_rests`). For the end, every move
lowers the rank of a job, and a job that is served can make one, unless it stands in the line
(`Served.ends`). -/
theorem retry_loop (hslots : Slots.ofLimit? limit = .ok world.slots) (hj : p.jobs[k]? = some j)
    (hmax : j.retries < RetryPolicy.maxWord) (hperf : j.task.Performs p.launch perform)
    (hplain : ∀ n, (perform n).result ≠ .error .interrupted) :
    let r := j.task.effectiveRetryPolicy
    let last := j.task.lastAttempt perform
    (∀ m ms, Trail p interval world (m :: ms) → m.interrupted = false →
      (∀ n, m.phaseOf? k = some (.beginning n) → n.toNat ≤ last ∧
        begun k (m :: ms) = firstNumbers n.toNat ∧
          ∀ i < n.toNat, HasFinished (m :: ms) k (.ofNat i) (perform i).ending) ∧
      (∀ x ∈ passages k (m :: ms), ∀ n wake, x.source = .resting n wake →
        x.target = .resting n wake ∨ x.target = .beginning n ∧ wake ≤ x.machine.now) ∧
      ∀ result, m.resultOf? k = some result →
        result.attempts.toNat = last + 1 ∧ result.outcome = (perform last).outcome ∧
        begun k (m :: ms) = firstNumbers (last + 1) ∧
        rests k (m :: ms) =
          (List.range last).map (fun i => (.ofNat (i + 1), delayMillis (r.delayFor i))) ∧
        (last = r.maxRetries.toNat → r.totalBackoff.nanos / 1000000000 < maxDelaySeconds →
          let slept := ((rests k (m :: ms)).map (·.2)).sum
          r.totalBackoff.nanos ≤ slept * 1000000 ∧
            slept * 1000000 ≤ r.totalBackoff.nanos + last * 999999 ∧
            (1000000 ∣ r.backoffBase.nanos → slept * 1000000 = r.totalBackoff.nanos)) ∧
        ∃ cs, m.toldBy k = j.registration ++ cs ∧ cs.map TaskChange.outline =
          .started .epoch :: (Performance.outputs (perform 0).lines ++
            (List.range last).flatMap (fun i =>
              .retrying (.ofNat (i + 1)) (.ofNat (r.maxRetries.toNat + 1)) .epoch ::
                Performance.outputs (perform (i + 1)).lines) ++
            [.completed .epoch (perform last).outcome])) ∧
    (∀ m actions a, Reached p interval world m → Served p k m actions → m.phaseOf? k = some a →
      (a.claim = .held → ∃ n result, (after p m actions n).resultOf? k = some result) ∧
      (a.hasAsked = true → (∃ n result, (after p m actions n).resultOf? k = some result) ∨
        ∃ n, ∀ l, n ≤ l → (after p m actions l).phaseOf? k = some .queued)) ∧
    (j.gate = none → ∀ m a, Reached p interval world m → m.phaseOf? k = some a →
      a.hasAsked = true) := by
  intro r last
  refine ⟨fun m ms h hm => ⟨fun n ha => h.of_beginning hslots hj hmax hperf hplain hm ha,
    fun x hx n wake hsource => h.rest_ends hslots hj hm hx hsource, fun result hresult => ?_⟩,
    fun m actions a hr hserved ha => ?_,
    fun hgate m a hr ha => hr.hasAsked_of_gate hslots hj hgate ha⟩
  · obtain ⟨hattempts, houtcome, hbegun, hrests, htold⟩ :=
      h.of_resultOf? hslots hj hmax hperf hplain hm hresult
    refine ⟨hattempts, houtcome, hbegun, hrests, fun hall hrange => ?_, htold⟩
    have hslept : (rests k (m :: ms)).map (·.2) =
        (List.range last).map fun i => delayMillis (r.delayFor i) := by
      rw [hrests, List.map_map]
      rfl
    simp only [hslept]
    have htotal : r.backoffUpTo last = r.totalBackoff := congrArg r.backoffUpTo hall
    exact htotal ▸ total_rests (htotal.symm ▸ hrange)
  · have hresult : (∃ l b, 0 ≤ l ∧ (after p m actions l).phaseOf? k = some b ∧
        b.hasAsked = true ∧ b.hasEnded = true) →
          ∃ n result, (after p m actions n).resultOf? k = some result := by
      rintro ⟨l, b, -, hb, hasked, hended⟩
      have hrl : Reached p interval world (after p m actions l) := hr.through l
      exact ⟨l, hrl.exists_resultOf? hslots hj hperf hplain (hserved.calm l) hb hasked hended⟩
    refine ⟨fun hheld => hresult (hserved.ends_of_held hslots hr hj (n := 0) ha hheld),
      fun hasked => ?_⟩
    rcases hserved.ends hslots hr hj (n := 0) ha hasked with ⟨l, -, hqueued⟩ | hends
    · exact .inr ⟨l, hqueued⟩
    · exact .inl (hresult hends)

end Machine

/-! ### Runs that nobody interrupts -/

/-- The attempts of the tasks of a plan do what is given for their jobs, and no result is an
interrupt. -/
def Plan.Performs (p : Plan) (behave : Nat → Nat → Performance) : Prop :=
  ∀ (i : Nat) (j : Job), p.jobs[i]? = some j → j.task.Performs p.launch (behave i) ∧
    ∀ n, (behave i n).result ≠ .error .interrupted

namespace Machine

variable {p : Plan} {j : Job} {a : Phase} {k : Nat} {m : Machine} {perform : Nat → Performance}
  {interval limit : Nat} {world : Machine}

/-- Work that does what is given does not interrupt the run. -/
lemma Moves.ne_trigger {s : JobState} {v : Move} (h : Moves p j s m a v)
    (hcont : a.isTurnedAway = true ∨ ∃ rest, a.Continues j.task perform rest) :
    v.deed ≠ .trigger := by
  cases h with
  | trigger n next =>
    obtain ⟨rest, -, lines, hplays, -⟩ := hcont.resolve_left (by simp [Phase.isTurnedAway])
    cases hplays
  | keep attempts outcome =>
    rcases keepReport_cases j s outcome m with h | ⟨files, h⟩ | ⟨files, record, h⟩ <;> simp [h]
  | _ => simp

/-- Where all tasks do what is given, no move interrupts the run. -/
lemma Reached.calm_make (hslots : Slots.ofLimit? limit = .ok world.slots)
    (hr : Reached p interval world m) {behave : Nat → Nat → Performance} (hp : p.Performs behave)
    (hm : m.interrupted = false) {i : Nat} {choices : Choices} {v : Move}
    (hv : m.nextMove? p i choices = some v) : (m.make p i v).interrupted = false := by
  obtain ⟨j, s, hj, ha, hmove⟩ := moves_of_nextMove? hv
  obtain ⟨hperf, hplain⟩ := hp i j hj
  have hcont := hr.continues hslots hj hperf hplain hm ha
  have hdeed := hmove.ne_trigger (hcont.imp_right fun ⟨_, rest, _, hrest, _⟩ => ⟨rest, hrest⟩)
  rw [make_interrupted hj]
  split
  next h => exact absurd h hdeed
  next => exact hm

/-- **Where all tasks do what is given, nothing but a trigger from outside interrupts the run.** -/
theorem Reached.calm_step (hslots : Slots.ofLimit? limit = .ok world.slots)
    (hr : Reached p interval world m) {behave : Nat → Nat → Performance} (hp : p.Performs behave)
    (hm : m.interrupted = false) {x : Action} (hx : x ≠ .trigger) :
    (m.step p x).interrupted = false := by
  cases x with
  | move i choices =>
    rw [step, closeIfEnded_eq]
    exact move_keeps (P := fun m => m.interrupted = false) (fun _ => hr.calm_make hslots hp hm) hm
  | poll i choices =>
    rw [step, closeIfEnded_eq]
    have hpoll : Reached p interval world (m.poll p i choices) ∧
        (m.poll p i choices).interrupted = false :=
      poll_keeps (P := fun m => Reached p interval world m ∧ m.interrupted = false)
        (fun _ _ hv h => ⟨h.1.tail (.move hv), h.1.calm_make hslots hp h.2 hv⟩) ⟨hr, hm⟩
    exact hpoll.2
  | arrive i d =>
    simp only [step, arrive]
    split
    · split <;> exact hm
    · exact hm
  | trigger => exact absurd rfl hx
  | advance | receive | tick => exact hm

/-- Job `k` has a turn and then the clock goes on, again and again. -/
def turns (k n : Nat) : Action := if n % 2 = 0 then .move k {} else .advance n

/-- Where all tasks do what is given, a job can be served. -/
lemma Reached.served (hslots : Slots.ofLimit? limit = .ok world.slots)
    (hr : Reached p interval world m) {behave : Nat → Nat → Performance} (hp : p.Performs behave)
    (hm : m.interrupted = false) (k : Nat) : Served p k m (turns k) := by
  refine ⟨fun n => ⟨2 * n, by omega, ?_⟩, fun time => ⟨2 * time + 2, ?_⟩, fun n => ?_⟩
  · simp [turns, Action.serves]
  · have hodd : (2 * time + 1) % 2 ≠ 0 := by omega
    have htime : time ≤ 2 * time + 1 := by omega
    rw [after, turns, if_neg hodd]
    exact htime.trans (le_max_right _ _)
  · induction n with
    | zero => exact hm
    | succ n ih =>
      have hrn : Reached p interval world (after p m (turns k) n) := hr.through n
      refine hrn.calm_step hslots hp ih ?_
      unfold turns
      split <;> simp

end Machine

/-! ### A task that is tried twice -/

/-- What the attempts of the task that sleeps do. -/
def sleeperPerformance : Nat → Performance
  | 0 => ⟨[], .error (.failed "boom")⟩
  | _ + 1 => ⟨[], .ok .null⟩

/-- The task has just got its slot. -/
def sleeperStart : Machine :=
  (Machine.start sleeperPlan 1 (Machine.world ⟨1, []⟩)).run sleeperPlan
    (List.replicate 2 (.move 0 {}))

namespace Machine

/-- Task `a` comes to a result with two attempts, between which it has rested for 10 ms. -/
theorem sleeper_is_tried_twice : ∃ n ms result,
    let m := after sleeperPlan sleeperStart (turns 0) n
    Trail sleeperPlan 1 (Machine.world ⟨1, []⟩) (m :: ms) ∧ m.resultOf? 0 = some result ∧
      result.attempts.toNat = 2 ∧ result.outcome = .success .null ∧
      begun 0 (m :: ms) = firstNumbers 2 ∧ rests 0 (m :: ms) = [(1, 10)] := by
  have hslots : Slots.ofLimit? 1 = .ok (Machine.world ⟨1, []⟩).slots := rfl
  have hreached : Reached sleeperPlan 1 (Machine.world ⟨1, []⟩) sleeperStart := reached_run _
  have hp : sleeperPlan.Performs fun _ => sleeperPerformance := by
    intro i j hj
    match i with
    | 0 =>
      cases hj
      refine ⟨fun n => ?_, fun n => ?_⟩
      · cases n <;> exact .finish _
      · cases n <;> simp [sleeperPerformance]
    | i + 1 => cases hj
  obtain ⟨hperf, hplain⟩ := hp 0 _ rfl
  have hserved := hreached.served hslots hp (by decide +kernel) 0
  obtain ⟨hsafe, hlive, -⟩ :=
    retry_loop (p := sleeperPlan) (k := 0) hslots rfl (by decide) hperf hplain
  have hheld : sleeperStart.claimOf 0 = .held := by decide +kernel
  obtain ⟨a, ha⟩ := hreached.phaseOf?_of_job (k := 0) rfl
  rw [claimOf_of_phaseOf? ha] at hheld
  obtain ⟨n, result, hresult⟩ := (hlive _ _ a hreached hserved ha).1 hheld
  have hafter : Reached sleeperPlan 1 (Machine.world ⟨1, []⟩)
      (after sleeperPlan sleeperStart (turns 0) n) := hreached.through n
  obtain ⟨ms, htrail⟩ := hafter.exists_trail
  obtain ⟨hattempts, houtcome, hbegun, hrests, -⟩ :=
    (hsafe _ ms htrail (hserved.calm n)).2.2 result hresult
  have hlast : sleeperTask.lastAttempt sleeperPerformance = 1 := by decide
  have hdelay : delayMillis (sleeperTask.effectiveRetryPolicy.delayFor 0) = 10 := by decide
  refine ⟨n, ms, result, htrail, hresult, hattempts.trans (congrArg (· + 1) hlast), ?_, ?_, ?_⟩
  · exact houtcome.trans (congrArg (fun l => (sleeperPerformance l).outcome) hlast)
  · exact hbegun.trans (congrArg (fun l => firstNumbers (l + 1)) hlast)
  · refine hrests.trans ((congrArg (fun l => (List.range l).map _) hlast).trans ?_)
    exact congrArg (fun d => [(1, d)]) hdelay

end Machine

end Taskflow
