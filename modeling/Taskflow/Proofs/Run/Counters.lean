import Taskflow.Proofs.Run.RetryLoop
import Taskflow.Proofs.Run.Standing
set_option autoImplicit false

/-!
# Counters of 32 bits

A policy may allow any number of retries that fits in 32 bits. The number of attempts that each
retry announces is one more than that, but at most the greatest 32-bit number; what is known of a
task has one less than what was announced; and a result has one more than the number of the last
attempt. The three agree below the top of the range. At the top the announced number of attempts is
one short, and so is the number of retries that is known.

## Main definitions

* `TaskChange.announcement?` — the two numbers of a retry.
* `RetryPolicy.announcements` — the numbers of the first retries.
* `RetryPolicy.Announced` — what was announced, and what is known of the task.

## Main results

* `Machine.Reached.announced` — retries are numbered without gaps, whatever the policy.
* `Machine.Reached.counters` — the counters of a task and of its result.
* `Machine.Served.exhausts` — what a job comes to whose attempts all fail.
* `Machine.counters_part` — at the top of the range the counters differ.
-/

namespace Taskflow

open TaskChange

/-- The number of the attempt and the number of attempts that a retry announces. -/
def TaskChange.announcement? : TaskChange → Option (UInt32 × UInt32)
  | .retrying attempt maxAttempts _ => some (attempt, maxAttempts)
  | _ => none

/-- The number of retries that is known of a task when so many attempts were announced. -/
def retriesOf (maxAttempts : UInt32) : UInt32 := if maxAttempts = 0 then 0 else maxAttempts - 1

namespace RetryPolicy

variable {r : RetryPolicy} {cs : List TaskChange} {u : TaskState} {c : TaskChange}

/-- The numbers that the first `n` retries announce. -/
def announcements (r : RetryPolicy) (n : Nat) : List (UInt32 × UInt32) :=
  (List.range n).map fun i => (.ofNat (i + 1), r.maxAttempts)

/-- Announcements count from one and name the same limit. -/
lemma mem_announcements {n : Nat} {x : UInt32 × UInt32} (h : x ∈ r.announcements n)
    (hn : n ≤ maxWord) : 0 < x.1.toNat ∧ x.1.toNat ≤ n ∧ x.2 = r.maxAttempts := by
  obtain ⟨i, hi, rfl⟩ := List.mem_map.1 h
  have hi := List.mem_range.1 hi
  rw [toNat_ofNat_succ (hi.trans_le hn)]
  exact ⟨Nat.succ_pos i, hi, rfl⟩

/-- One more announcement follows the first ones. -/
lemma announcements_succ (n : UInt32) : r.announcements (n.toNat + 1) =
    r.announcements n.toNat ++ [(n + 1, r.maxAttempts)] := by
  simp [announcements, List.range_succ]

/-- One attempt less than is announced, and this at most. -/
lemma toNat_retriesOf_maxAttempts (r : RetryPolicy) :
    (retriesOf r.maxAttempts).toNat = min r.maxRetries.toNat (maxWord - 1) := by
  have hmax := r.toNat_maxAttempts_eq_min
  have hword : 1 < maxWord := by decide
  have hpos : (1 : UInt32).toNat ≤ r.maxAttempts.toNat := by
    change 1 ≤ r.maxAttempts.toNat
    omega
  have hne : r.maxAttempts ≠ 0 := by
    intro hzero
    rw [hzero] at hpos
    cases hpos
  rw [retriesOf, if_neg hne, UInt32.toNat_sub_of_le _ _ (UInt32.le_iff_toNat_le.2 hpos), hmax]
  change min (r.maxRetries.toNat + 1) maxWord - 1 = _
  omega

/-- Under policy `r`, the changes `cs` announce the retries up to the number that is known of the
task, and with the first of them the number of retries is known. -/
structure Announced (r : RetryPolicy) (cs : List TaskChange) (u : TaskState) : Prop where
  announced_eq : cs.filterMap announcement? = r.announcements u.retryAttempt.toNat
  retryAttempt_le : u.retryAttempt.toNat ≤ r.maxRetries.toNat
  maxRetries_eq : u.maxRetries = if u.retryAttempt = 0 then 0 else retriesOf r.maxAttempts

/-- What is neither a registration nor a retry changes no counter. -/
lemma Announced.concat (h : r.Announced cs u) (hc : c.announcement? = .none)
    (hreg : ∀ name, c ≠ .registered name) : r.Announced (cs ++ [c]) (u.apply c) := by
  have hkept : (u.apply c).retryAttempt = u.retryAttempt ∧
      (u.apply c).maxRetries = u.maxRetries := by
    cases c with
    | registered name => exact absurd rfl (hreg name)
    | retrying => cases hc
    | output stream => cases stream <;> exact ⟨rfl, rfl⟩
    | completed time outcome => cases outcome <;> exact ⟨rfl, rfl⟩
    | started | blocked => exact ⟨rfl, rfl⟩
  obtain ⟨heq, hle, hmax⟩ := h
  constructor
  · rw [List.filterMap_append, List.filterMap_cons_none hc, heq, hkept.1]
    exact List.append_nil _
  · rwa [hkept.1]
  · rwa [hkept.1, hkept.2]

/-- A retry that the policy allows is announced with the next number. -/
lemma Announced.retry (h : r.Announced cs u) (hretry : r.shouldRetry u.retryAttempt = true)
    (time : Timestamp) :
    let c := TaskChange.retrying (u.retryAttempt + 1) r.maxAttempts time
    r.Announced (cs ++ [c]) (u.apply c) := by
  intro c
  obtain ⟨hlt, hsucc⟩ := toNat_succ_of_shouldRetry hretry
  have hne : u.retryAttempt + 1 ≠ 0 := by
    intro hzero
    rw [hzero] at hsucc
    cases hsucc
  constructor
  · change (cs ++ [c]).filterMap announcement? = r.announcements (u.retryAttempt + 1).toNat
    rw [List.filterMap_append, h.announced_eq, hsucc, announcements_succ]
    rfl
  · exact hsucc.trans_le hlt
  · exact (if_neg hne).symm

end RetryPolicy

/-- What is known of a task that has started is not that it is pending. -/
lemma Lived.not_pending {cs : List TaskChange} (h : Lived cs) (hstarted : HasStarted cs)
    (id : TaskId) (name : String) :
    (cs.foldl TaskState.apply (.fresh id name)).status ≠ .pending := by
  obtain ⟨time, hmem⟩ := hstarted
  rcases h with rfl | ⟨d, rfl⟩ | h | ⟨outcome, h⟩
  · cases hmem
  · simp at hmem
  · simp [(h.isUnderway id name).status_eq]
  · rw [h.status_eq]
    split <;> simp

/-- The attempts that are over for a job are those that its task shows. -/
lemma Phase.Numbered.of_conclusion {t : TaskDefinition} {u : TaskState} {a : Phase}
    {attempts : UInt32} {outcome : TaskOutcome} (h : a.Numbered t u)
    (ha : a.conclusion? = some (attempts, outcome)) (hu : u.status ≠ .pending) :
    attempts = u.retryAttempt + 1 := by
  cases a with
  | reporting | completing | releasing => cases ha; exact h
  | settling _ result | ended _ result =>
    cases result with
    | none => cases ha
    | some r =>
      cases ha
      exact (h.resolve_left fun h => hu h.1).2
  | _ => cases ha

/-- A task that is registered afresh is as it was. -/
lemma foldl_registration (j : Job) (cs : List TaskChange) :
    (j.registration ++ cs).foldl TaskState.apply (.fresh j.task.id j.task.name) =
      cs.foldl TaskState.apply (.fresh j.task.id j.task.name) := by
  rw [List.foldl_append, Job.registration]
  split <;> rfl

namespace Machine

variable {p : Plan} {j : Job} {a b : Phase} {k : Nat} {m : Machine} {c : Option TaskChange}
  {cs : List TaskChange} {u : TaskState} {interval limit : Nat} {world : Machine}

/-- What is known of the task of a job from what the job has told. -/
def knownOf (m : Machine) (k : Nat) (t : TaskDefinition) : TaskState :=
  (m.toldBy k).foldl TaskState.apply (.fresh t.id t.name)

/-- A move announces what the policy of its task says. -/
lemma Moves.announced {s : JobState} {v : Move} (h : Moves p j s m a v)
    (hu : j.task.effectiveRetryPolicy.Announced cs u) (ha : a.Numbered j.task u) :
    j.task.effectiveRetryPolicy.Announced (cs ++ v.deed.told.toList)
      (v.deed.told.toList.foldl TaskState.apply u) := by
  have hreg := fun c => h.told_ne_registered (c := c)
  cases h with
  | retry n e record wake he hretry =>
    obtain rfl : n = u.retryAttempt := ha
    exact hu.retry hretry m.timestamp
  | block | start | emit | complete => exact hu.concat rfl (hreg _ rfl)
  | keep => simpa using hu
  | _ => simpa [Deed.told] using hu

/-- A turn announces what the policy of its task says. -/
lemma Turn.announced (h : Turn p j m a c b) (hu : j.task.effectiveRetryPolicy.Announced cs u)
    (ha : a.Numbered j.task u) :
    j.task.effectiveRetryPolicy.Announced (cs ++ c.toList) (c.toList.foldl TaskState.apply u) := by
  cases h with
  | stay | grant | hear => simpa using hu
  | move h => exact h.announced hu ha

/-- **In every reached machine a job has announced its retries without gaps**, whatever its policy,
and this is what is known of its task. -/
theorem Reached.announced (hslots : Slots.ofLimit? limit = .ok world.slots)
    (h : Reached p interval world m) (hj : p.jobs[k]? = some j) :
    j.task.effectiveRetryPolicy.Announced (m.toldBy k) (m.knownOf k j.task) := by
  obtain ⟨ms, htrail⟩ := h.exists_trail
  obtain ⟨a, ha⟩ := h.phaseOf?_of_job hj
  refine htrail.induct_job hslots hj (I := fun _ _ told =>
    j.task.effectiveRetryPolicy.Announced told
      (told.foldl TaskState.apply (.fresh j.task.id j.task.name))) ?_ ?_ ha
  · unfold Job.registration
    split <;> exact ⟨rfl, Nat.zero_le _, rfl⟩
  · intro m m' ms a c b htrail _ hturn ha _ hinv
    obtain ⟨cs, htold, -, hnumbered⟩ := htrail.reached.numbered hslots hj ha
    rw [List.foldl_append]
    refine hturn.announced hinv ?_
    rwa [htold, foldl_registration]

/-- **The counters of a task and of its result.** For every plan, every limit, every job whatever
its policy, and every reached machine, let `n` be the number of the retry that is known of the task.
* The job has announced the retries `1, …, n`, and `n` is at most the number of retries.
* Each of them announced one attempt more than there are retries, or the greatest 32-bit number, and
  its own number is smaller, unless it is that number.
* After the first of them, the number of retries is known, as long as it is below the greatest
  32-bit number, and one less if not.
* Unless `n` is that number, an attempt counts as number `n + 1`, in the log as in a result. A retry
  is logged with a number that does not overflow in any case.

**Proof sketch.** Two invariants hold along every run. What a job has announced are the first
retries, each with the number of attempts that the policy allows, and what is known of its task are
the numbers of the last one (`RetryPolicy.Announced`); and the phase of a job carries the number of
that retry (`Phase.Numbered`). The rest is arithmetic of 32-bit numbers. -/
theorem Reached.counters (hslots : Slots.ofLimit? limit = .ok world.slots)
    (h : Reached p interval world m) (hj : p.jobs[k]? = some j) :
    let r := j.task.effectiveRetryPolicy
    let u := m.knownOf k j.task
    let n := u.retryAttempt.toNat
    ((m.toldBy k).filterMap announcement? = r.announcements n ∧ n ≤ r.maxRetries.toNat) ∧
    (∀ attempt maxAttempts time, .retrying attempt maxAttempts time ∈ m.toldBy k →
      0 < attempt.toNat ∧ attempt.toNat ≤ n ∧
      maxAttempts.toNat = min (r.maxRetries.toNat + 1) RetryPolicy.maxWord ∧
      (attempt < maxAttempts ∨ attempt.toNat = RetryPolicy.maxWord)) ∧
    (0 < n → u.maxRetries.toNat = min r.maxRetries.toNat (RetryPolicy.maxWord - 1)) ∧
    (u.retryAttempt ≤ u.maxRetries ∨ n = RetryPolicy.maxWord) ∧
    (p.Linked → (SystemState.empty.fold m.events).get? j.task.id = some u) ∧
    (∀ l ending, m.phaseOf? k = some (.judging l ending) →
      n < RetryPolicy.maxWord ∨ r.shouldRetry l = true → (l + 1).toNat = n + 1) ∧
    (n < RetryPolicy.maxWord → HasStarted (m.toldBy k) → ∀ a attempts outcome,
      m.phaseOf? k = some a → a.conclusion? = some (attempts, outcome) →
        attempts.toNat = n + 1) := by
  intro r u n
  obtain ⟨a, ha⟩ := h.phaseOf?_of_job hj
  obtain ⟨cs, htold, hcs, hnumbered⟩ := h.numbered hslots hj ha
  have hu : u = cs.foldl TaskState.apply (.fresh j.task.id j.task.name) := by
    simp only [u, knownOf, htold, foldl_registration]
  rw [← hu] at hnumbered
  have hannounced : r.Announced (m.toldBy k) u := h.announced hslots hj
  have hmax := r.toNat_maxAttempts_eq_min
  have hretries : r.maxRetries.toNat ≤ RetryPolicy.maxWord :=
    Nat.le_of_lt_succ r.maxRetries.toNat_lt
  have hle : n ≤ r.maxRetries.toNat := hannounced.retryAttempt_le
  have hsucc : n < RetryPolicy.maxWord → (u.retryAttempt + 1).toNat = n + 1 :=
    RetryPolicy.toNat_add_one
  have hknown : 0 < n → u.maxRetries.toNat = min r.maxRetries.toNat (RetryPolicy.maxWord - 1) := by
    intro hn
    have hne : u.retryAttempt ≠ 0 := by
      intro hzero
      simp [n, hzero] at hn
    rw [hannounced.maxRetries_eq, if_neg hne, r.toNat_retriesOf_maxAttempts]
  refine ⟨⟨hannounced.announced_eq, hle⟩, fun attempt maxAttempts time hmem => ?_, hknown, ?_,
    fun hp => ?_, fun l ending hl hcase => ?_, fun hn hstarted b attempts outcome hb hover => ?_⟩
  · have hmem : (attempt, maxAttempts) ∈ r.announcements n :=
      hannounced.announced_eq ▸ List.mem_filterMap.2 ⟨_, hmem, rfl⟩
    obtain ⟨hpos, hattempt, hmaxAttempts⟩ := RetryPolicy.mem_announcements hmem (hle.trans hretries)
    have hmaxAttempts : maxAttempts = r.maxAttempts := hmaxAttempts
    refine ⟨hpos, hattempt, hmaxAttempts ▸ hmax, ?_⟩
    rw [UInt32.lt_iff_toNat_lt, hmaxAttempts, hmax]
    change attempt.toNat ≤ n at hattempt
    omega
  · rw [UInt32.le_iff_toNat_le]
    change n ≤ _ ∨ _
    rcases Nat.eq_zero_or_pos n with hzero | hpos
    · exact .inl (hzero ▸ Nat.zero_le _)
    · rw [hknown hpos]
      omega
  · obtain ⟨cs', htold', -, -, -, hget⟩ := h.exists_standing hslots hp hj ha
    obtain rfl : cs = cs' := List.append_cancel_left (htold.symm.trans htold')
    exact hu ▸ hget
  · obtain rfl := Option.some.inj (ha.symm.trans hl)
    obtain rfl : l = u.retryAttempt := hnumbered
    exact hcase.elim hsucc fun hretry => (RetryPolicy.toNat_succ_of_shouldRetry hretry).2
  · obtain rfl := Option.some.inj (ha.symm.trans hb)
    rw [htold, hasStarted_registration] at hstarted
    rw [hnumbered.of_conclusion hover (hu ▸ hcs.lived.not_pending hstarted _ _), hsucc hn]

/-- **A job whose attempts all fail exhausts its policy**: it announces the last retry, and counts
one attempt more, in 32 bits. -/
theorem Served.exhausts {actions : Nat → Action} {perform : Nat → Performance}
    (hslots : Slots.ofLimit? limit = .ok world.slots) (hr : Reached p interval world m)
    (hserved : Served p k m actions) (hj : p.jobs[k]? = some j)
    (hperf : j.task.Performs p.launch perform)
    (hplain : ∀ n, (perform n).result ≠ .error .interrupted)
    (herror : ∀ n, ∃ e, (perform n).result = .error e) (hheld : m.claimOf k = .held)
    (hpos : 0 < j.retries) :
    let r := j.task.effectiveRetryPolicy
    ∃ n result time, (after p m actions n).resultOf? k = some result ∧
      result.attempts = r.maxRetries + 1 ∧
        .retrying r.maxRetries r.maxAttempts time ∈ (after p m actions n).toldBy k := by
  intro r
  obtain ⟨a, ha⟩ := hr.phaseOf?_of_job hj
  rw [claimOf_of_phaseOf? ha] at hheld
  obtain ⟨n, b, -, hb, hasked, hended⟩ := hserved.ends_of_held hslots hr hj (n := 0) ha hheld
  have hrn : Reached p interval world (after p m actions n) := hr.through n
  have hm := hserved.calm n
  obtain ⟨result, hresult⟩ := hrn.exists_resultOf? hslots hj hperf hplain hm hb hasked hended
  obtain ⟨outcome, hb⟩ := exists_ended_of_resultOf? hresult
  obtain ⟨cs, htold, hcs, hnumbered⟩ := hrn.numbered hslots hj hb
  have hannounced := hrn.announced hslots hj
  rw [knownOf, htold, foldl_registration] at hannounced
  generalize hu : cs.foldl TaskState.apply (.fresh j.task.id j.task.name) = u
    at hnumbered hannounced
  -- the last retry has been announced
  have hretry : ∃ time, .retrying r.maxRetries r.maxAttempts time ∈ cs := by
    obtain ⟨cs', rest, htold', hrest, hexec⟩ :=
      (hrn.continues hslots hj hperf hplain hm hb).resolve_left (by simp [Phase.isTurnedAway])
    obtain rfl : cs = cs' := List.append_cancel_left (htold.symm.trans htold')
    obtain rfl : rest = [] := hrest
    have hlast : j.retries - 1 < j.task.lastAttempt perform := by
      rw [TaskDefinition.lastAttempt_of_errors herror]
      exact Nat.sub_one_lt_of_lt hpos
    have hmem := TaskDefinition.retrying_mem_execution hlast
    rw [Nat.sub_add_cancel hpos, Job.retries, UInt32.ofNat_toNat, ← hexec, List.append_nil] at hmem
    obtain ⟨c, hc, houtline⟩ := List.mem_map.1 hmem
    cases c with
    | retrying attempt maxAttempts time =>
      obtain ⟨rfl, rfl, -⟩ := TaskChange.retrying.inj houtline
      exact ⟨time, hc⟩
    | _ => cases houtline
  obtain ⟨time, hmem⟩ := hretry
  have hnumber : u.retryAttempt = r.maxRetries := by
    have hmem' : (r.maxRetries, r.maxAttempts) ∈ r.announcements u.retryAttempt.toNat := by
      rw [← hannounced.announced_eq]
      exact List.mem_filterMap.2 ⟨_, List.mem_append_right _ hmem, rfl⟩
    have hword : u.retryAttempt.toNat ≤ RetryPolicy.maxWord :=
      Nat.le_of_lt_succ u.retryAttempt.toNat_lt
    have hle := (RetryPolicy.mem_announcements hmem' hword).2.1
    exact UInt32.toNat_inj.1 (Nat.le_antisymm hannounced.retryAttempt_le hle)
  have hstarted : HasStarted cs :=
    (hasStarted_iff_of_settled hcs).2 (List.ne_nil_of_mem hmem)
  refine ⟨n, result, time, hresult, ?_, htold ▸ List.mem_append_right _ hmem⟩
  rw [hnumbered.of_conclusion rfl (hu ▸ hcs.lived.not_pending hstarted _ _), hnumber]

end Machine

/-! ### Tasks without bounds -/

/-- Task `a` does what is given. It may be tried again as often as can be counted. -/
def unboundedTask (behaviour : Nat → Attempt) : TaskDefinition :=
  { TaskDefinition.ofComputation ⟨"a"⟩ behaviour with
    retryPolicy := some ⟨.ofNat RetryPolicy.maxWord, .ofMillis 1⟩ }

/-- The graph of the task. -/
def unboundedPlan (behaviour : Nat → Attempt) : Plan :=
  .ofGraph ⟨[unboundedTask behaviour], [⟨"a"⟩]⟩ (fun _ _ => .error "") default

/-- The first attempt fails, and the others succeed. -/
def secondTime : Nat → Attempt
  | 0 => .finish (.fail (.failed "boom"))
  | _ + 1 => .finish (.ok .null)

/-- The task goes on to its end, with one slot, and the coordinator takes what it has told. -/
def secondTimeRun : Machine :=
  (Machine.start (unboundedPlan secondTime) 1 (Machine.world ⟨1, []⟩)).run
    (unboundedPlan secondTime)
    (List.replicate 8 (.move 0 {}) ++ .advance 1 :: List.replicate 9 (.move 0 {}) ++ [.receive])

/-- Every attempt fails. -/
def neverTime (_ : Nat) : Attempt := .finish (.fail (.failed "boom"))

/-- The task of which every attempt fails has just got its slot. -/
def neverStart : Machine :=
  (Machine.start (unboundedPlan neverTime) 1 (Machine.world ⟨1, []⟩)).run
    (unboundedPlan neverTime) (List.replicate 3 (.move 0 {}))

namespace Machine

/-- The retry is number 1, and the result counts two attempts. -/
theorem secondTime_counts : ∃ r, secondTimeRun.resultOf? 0 = some r ∧ r.attempts.toNat = 2 ∧
    (secondTimeRun.toldBy 0).filterMap announcement? = [(1, .ofNat RetryPolicy.maxWord)] ∧
    (secondTimeRun.knownOf 0 (unboundedTask secondTime)).maxRetries.toNat =
      RetryPolicy.maxWord - 1 := by
  have hslots : Slots.ofLimit? 1 = .ok (Machine.world ⟨1, []⟩).slots := rfl
  have hreached : Reached (unboundedPlan secondTime) 1 (Machine.world ⟨1, []⟩) secondTimeRun :=
    reached_run _
  have hresult : (secondTimeRun.resultOf? 0).isSome = true := by decide +kernel
  have hnumber : (secondTimeRun.knownOf 0 (unboundedTask secondTime)).retryAttempt.toNat = 1 := by
    decide +kernel
  have hstarted : (secondTimeRun.toldBy 0)[1]? = some (.started (.ofMillis 0)) := by
    decide +kernel
  obtain ⟨j, hj, htask⟩ : ∃ j, (unboundedPlan secondTime).jobs[0]? = some j ∧
      j.task = unboundedTask secondTime := ⟨_, rfl, rfl⟩
  have hcounters := hreached.counters hslots hj
  simp only [htask, hnumber] at hcounters
  obtain ⟨⟨hannounced, -⟩, -, hknown, -, -, -, hcount⟩ := hcounters
  obtain ⟨r, hr⟩ := Option.isSome_iff_exists.1 hresult
  obtain ⟨outcome, hended⟩ := exists_ended_of_resultOf? hr
  exact ⟨r, hr, hcount (by decide) ⟨_, List.mem_of_getElem? hstarted⟩ _ _ _ hended rfl,
    hannounced.trans (by decide +kernel), (hknown Nat.one_pos).trans (by decide +kernel)⟩

/-- **At the top of the range the counters part**: after one retry, one retry less is known than the
policy has; and if every attempt fails, the last retry announces as many attempts as its own number,
and the count of the attempts overflows. -/
theorem counters_part :
    (∃ u, secondTimeRun.coordinator.state.get? ⟨"a"⟩ = some u ∧ u.retryAttempt = 1 ∧
      u.maxRetries.toNat = 4294967294 ∧
      (unboundedTask secondTime).effectiveRetryPolicy.maxRetries.toNat = 4294967295) ∧
    ∃ m result time, Reached (unboundedPlan neverTime) 1 (Machine.world ⟨1, []⟩) m ∧
      .retrying 4294967295 4294967295 time ∈ m.toldBy 0 ∧
      m.resultOf? 0 = some result ∧ result.attempts = 0 := by
  refine ⟨?_, ?_⟩
  · have hknown : (secondTimeRun.coordinator.state.get? ⟨"a"⟩).map
        (fun u => (u.retryAttempt, u.maxRetries.toNat)) = some (1, 4294967294) := by
      decide +kernel
    obtain ⟨u, hu, hnumbers⟩ := Option.map_eq_some_iff.1 hknown
    obtain ⟨hnumber, hretries⟩ := Prod.mk.inj hnumbers
    exact ⟨u, hu, hnumber, hretries, rfl⟩
  · have hslots : Slots.ofLimit? 1 = .ok (Machine.world ⟨1, []⟩).slots := rfl
    have hreached : Reached (unboundedPlan neverTime) 1 (Machine.world ⟨1, []⟩) neverStart :=
      reached_run _
    have hp : (unboundedPlan neverTime).Performs fun _ _ => ⟨[], .error (.failed "boom")⟩ := by
      intro i j hj
      match i with
      | 0 => cases hj; exact ⟨fun n => .finish _, fun n => by simp⟩
      | i + 1 => cases hj
    obtain ⟨hperf, hplain⟩ := hp 0 _ rfl
    have hserved := hreached.served hslots hp (by decide +kernel) 0
    obtain ⟨n, result, time, hresult, hattempts, hmem⟩ := hserved.exhausts hslots hreached rfl hperf
      hplain (fun n => ⟨_, rfl⟩) (by decide +kernel) (by decide)
    exact ⟨_, result, time, hreached.through n, hmem, hresult, hattempts⟩

end Machine

end Taskflow
