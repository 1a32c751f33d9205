import Taskflow.Proofs.Run.Lifecycle
set_option autoImplicit false

/-!
# The grammar of a life

After its registration a task says nothing, or that it is blocked, or it starts, puts out lines,
announces each retry by its number, and comes to its end once. What its job has told in a phase is a
first part of that.

## Main definitions

* `TaskChange.Attempts` — the start of a task, its lines and its retries.
* `TaskChange.Life` — the lives that a task can have.
* `Phase.Recorded` — what of its life a job has told in a phase.

## Main results

* `TaskChange.Life.eq_nil_of_isLast` — nothing follows the end of a life.
* `Phase.Recorded.exists_life` — what was told in a phase is a first part of a life.
* `Machine.Turn.recorded` — a turn adds what the next phase expects.
-/

namespace Taskflow

/-! ### Lives -/

namespace TaskChange

/-- What a task tells until it is in attempt `n`, counted from zero, if it has `limit` attempts: it
starts, each further attempt is announced with its number, and there are lines in between. -/
inductive Attempts (limit : Nat) : Nat → List TaskChange → Prop
  | start (time : Timestamp) : Attempts limit 0 [.started time]
  | line {n : Nat} {cs : List TaskChange} (h : Attempts limit n cs) (stream : Stream)
    (text : String) : Attempts limit n (cs ++ [.output stream text])
  | retry {n : Nat} {cs : List TaskChange} (h : Attempts limit n cs) {attempt maxAttempts : UInt32}
    (hattempt : attempt.toNat = n + 1) (hmax : maxAttempts.toNat = limit) (time : Timestamp) :
    Attempts limit (n + 1) (cs ++ [.retrying attempt maxAttempts time])

/-- What a task with so many retries tells in the whole of a run, after its registration. -/
inductive Life (retries : Nat) : List TaskChange → Prop
  | silent : Life retries []
  | blocked (dependency : TaskId) : Life retries [.blocked dependency]
  | executed {n : Nat} {cs : List TaskChange} (h : Attempts (retries + 1) n cs) (hn : n ≤ retries)
    (time : Timestamp) (outcome : TaskOutcome) : Life retries (cs ++ [.completed time outcome])

variable {limit retries n : Nat} {cs : List TaskChange}

/-- Attempts are underway. -/
lemma Attempts.underway (h : Attempts limit n cs) : Underway cs := by
  induction h with
  | start time => exact underway_started time
  | line _ stream text ih => exact ih.concat rfl
  | retry _ _ _ time ih => exact ih.concat rfl

/-- **Nothing follows the end of a life.** -/
theorem Life.eq_nil_of_isLast {before after : List TaskChange} {c : TaskChange}
    (h : Life retries (before ++ c :: after)) (hc : c.isLast = true) : after = [] := by
  generalize hcs : before ++ c :: after = cs at h
  cases h with
  | silent => simp at hcs
  | blocked d => exact eq_nil_of_singleton hcs
  | executed h hn time outcome =>
    have hcompleted : Completed outcome (before ++ c :: after) := ⟨_, time, h.underway, hcs⟩
    exact hcompleted.eq_nil_of_isLast hc

/-- **A task that is blocked does not start.** -/
theorem Life.not_started_of_blocked (h : Life retries cs) {dependency : TaskId} {time : Timestamp}
    (hblocked : .blocked dependency ∈ cs) : .started time ∉ cs := by
  cases h with
  | silent => cases hblocked
  | blocked d => simp
  | executed h hn t outcome =>
    rcases List.mem_append.1 hblocked with hmem | hmem
    · have := h.underway.not_isLast hmem
      cases this
    · simp at hmem

end TaskChange

open TaskChange

/-- What of its life a job with so many retries has told in a phase. -/
def Phase.Recorded (retries : Nat) (cs : List TaskChange) : Phase → Prop
  | .waiting .. | .blocking _ | .requesting | .asking | .queued | .granted | .starting => cs = []
  | .beginning n | .attempting n .. | .playing n _ | .judging n _ | .resting n _ =>
    n.toNat ≤ retries ∧ Attempts (retries + 1) n.toNat cs
  | .reporting .. | .completing .. | .crashing _ | .crashed _ =>
    ∃ n ≤ retries, Attempts (retries + 1) n cs
  | .releasing .. | .settling .. | .ended .. => Life retries cs

/-- What was told in a phase is a first part of a life. -/
lemma Phase.Recorded.exists_life {a : Phase} {retries : Nat} {cs : List TaskChange}
    (h : a.Recorded retries cs) : ∃ rest, Life retries (cs ++ rest) := by
  have hend : ∀ {n : Nat}, n ≤ retries → Attempts (retries + 1) n cs →
      ∃ rest, Life retries (cs ++ rest) :=
    fun hn h => ⟨[.completed default default], .executed h hn _ _⟩
  cases a with
  | beginning | attempting | playing | judging | resting => exact hend h.1 h.2
  | reporting | completing | crashing | crashed =>
    obtain ⟨n, hn, h⟩ := h
    exact hend hn h
  | releasing | settling | ended => exact ⟨[], (List.append_nil cs).symm ▸ h⟩
  | _ =>
    obtain rfl : cs = [] := h
    exact ⟨[], .silent⟩

/-! ### Turns -/

/-- A number of retries is a word. -/
lemma RetryPolicy.lt_size_of_le {n : Nat} (h : n ≤ maxWord) : n < UInt32.size :=
  Nat.lt_succ_of_le h

/-- After any number but the greatest comes the next one. -/
lemma RetryPolicy.toNat_ofNat_succ {n : Nat} (h : n < maxWord) :
    (UInt32.ofNat (n + 1)).toNat = n + 1 :=
  UInt32.toNat_ofNat_of_lt' (lt_size_of_le h)

/-- A number of retries that is not the largest has a next one. -/
lemma RetryPolicy.toNat_add_one {n : UInt32} (h : n.toNat < maxWord) :
    (n + 1).toNat = n.toNat + 1 := by
  rw [UInt32.toNat_add]
  exact Nat.mod_eq_of_lt (lt_size_of_le h)

/-- The number of attempts that is announced. -/
lemma RetryPolicy.toNat_maxAttempts_eq_min (r : RetryPolicy) :
    r.maxAttempts.toNat = min (r.maxRetries.toNat + 1) maxWord := by
  rw [maxAttempts, UInt32.toNat_ofNat_of_lt' (lt_size_of_le (Nat.min_le_right _ _))]

/-- One attempt more than there are retries, unless it lies beyond the greatest 32-bit number. -/
lemma RetryPolicy.maxAttempts_eq_ofNat {r : RetryPolicy} (h : r.maxRetries.toNat < maxWord) :
    r.maxAttempts = .ofNat (r.maxRetries.toNat + 1) := by
  rw [maxAttempts, Nat.min_eq_left h]

/-- The number of attempts that is announced, unless it lies beyond the greatest 32-bit number. -/
lemma RetryPolicy.toNat_maxAttempts {r : RetryPolicy} (h : r.maxRetries.toNat < maxWord) :
    r.maxAttempts.toNat = r.maxRetries.toNat + 1 := by
  rw [toNat_maxAttempts_eq_min, Nat.min_eq_left h]

/-- The number of retries that a job has. -/
def Job.retries (j : Job) : Nat := j.task.effectiveRetryPolicy.maxRetries.toNat

namespace Machine

variable {p : Plan} {j : Job} {a b : Phase} {i k : Nat} {m : Machine} {c : Option TaskChange}
  {cs : List TaskChange} {interval limit : Nat} {world : Machine} {g : TaskGraph}
  {launch : Launcher} {run : RunId}

/-- The phase that follows the attempts has all retries on record. -/
lemma recorded_concluded {retries n : Nat} {t : TaskDefinition} {attempts : UInt32}
    {outcome : TaskOutcome} (hn : n ≤ retries) (h : Attempts (retries + 1) n cs) :
    (concluded t attempts outcome).Recorded retries cs := by
  unfold concluded
  split <;> exact ⟨n, hn, h⟩

/-- A move adds to what was told what the next phase expects. -/
lemma Moves.recorded {s : JobState} {v : Move} (hmax : j.retries < RetryPolicy.maxWord)
    (h : Moves p j s m a v) (ha : a.Recorded j.retries cs) :
    v.phase.Recorded j.retries (cs ++ v.deed.told.toList) := by
  cases h with
  | block d =>
    obtain rfl : cs = [] := ha
    exact .blocked _
  | giveUp | hearInterrupt | withdraw | leave | refuse =>
    obtain rfl : cs = [] := ha
    exact .silent
  | start =>
    obtain rfl : cs = [] := ha
    exact ⟨Nat.zero_le _, .start _⟩
  | emit n stream line next => exact ⟨ha.1, ha.2.line stream line⟩
  | retry n e record wake he hn =>
    obtain ⟨hlt, hsucc⟩ := RetryPolicy.toNat_succ_of_shouldRetry hn
    refine ⟨hsucc ▸ hlt, ?_⟩
    have hretry := ha.2.retry hsucc (RetryPolicy.toNat_maxAttempts hmax) m.timestamp
    rw [← hsucc] at hretry
    exact hretry
  | succeed | exhaust | stop => exact (List.append_nil cs).symm ▸ recorded_concluded ha.1 ha.2
  | panic => exact (List.append_nil cs).symm ▸ ⟨_, ha.1, ha.2⟩
  | keep attempts outcome =>
    rw [told_keepReport]
    exact (List.append_nil cs).symm ▸ ha
  | complete attempts outcome =>
    obtain ⟨n, hn, h⟩ := ha
    exact .executed h hn m.timestamp outcome
  | _ => exact (List.append_nil cs).symm ▸ ha

/-- A turn adds to what was told what the next phase expects. -/
lemma Turn.recorded (hmax : j.retries < RetryPolicy.maxWord) (h : Turn p j m a c b)
    (ha : a.Recorded j.retries cs) : b.Recorded j.retries (cs ++ c.toList) := by
  cases h with
  | stay | grant | hear => exact (List.append_nil cs).symm ▸ ha
  | move h => exact h.recorded hmax ha

end Machine

end Taskflow
